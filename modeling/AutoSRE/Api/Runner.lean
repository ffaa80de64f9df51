import AutoSRE.Core.Ending
import AutoSRE.Core.Gate

/-!
# The runner (`api/runner.py`)

- **Preparation** (`prepareIncident`). A new incident has its own run metrics.
- **The runner** (`runner`). It executes the nodes of an incident, and `approve_incident` resumes a
  paused one, without run metrics. Its runs are runs of the graph (`runner_run`).
- **Timing** (`Accounted`). What `complete_node` writes is right when no backoff and no wait are in
  the metrics that a resumption drops (`timing_accounted`), and wrong after others
  (`timing_dropped`).
-/

namespace AutoSRE
namespace Api

open Lib Py Safety Tools AutoSRE.Core

/-! ## The runner -/

/-- The thread of a new incident (`_prepare_incident`). -/
def prepareIncident (metadata : IncidentMetadata) (now : PyFloat) : Thread :=
  let initialState := createInitialState metadata 3 now
  { values := initialState
    next := .node (routeInitialPhase initialState)
    metrics := some {} }

/-- A step of an incident under the runner. -/
inductive RunnerStep where
  /-- The stream executes the next node. -/
  | stream (env : NodeEnv)
  | approveIncident (approved : Bool) (comment : String) (env : NodeEnv)

/-- The step of the graph; `approve_incident` builds a configuration without run metrics. -/
def RunnerStep.label : RunnerStep → Label
  | .stream env => .run env
  | .approveIncident approved comment env =>
    .resume (.obj [("approved", .bool approved), ("comment", .str comment)]) env none

/-- The checks of `approve_incident`. -/
def awaitsApproval (s : AgentState) : Bool :=
  s.requiresHumanApproval && s.approvalGranted.isNone

/-- The step of an incident. -/
def stepIncident (ctx : GraphContext) (t : Thread) (a : RunnerStep) :
    Option (Thread × List Event) :=
  match a with
  | .stream _ => stepThread ctx t a.label
  | .approveIncident .. => if awaitsApproval t.values then stepThread ctx t a.label else none

/-- A thread of a new incident. -/
def Prepared (t : Thread) : Prop := ∃ metadata now, t = prepareIncident metadata now

/-- An incident under the runner. -/
def runner (ctx : GraphContext) : Sys Thread RunnerStep Event where
  init := Prepared
  step := stepIncident ctx

variable {ctx : GraphContext} {t t' : Thread} {a : RunnerStep} {fs : List Event}

theorem runner_step (r : Thread × List Event) (h : (runner ctx).step t a = some r) :
    (graph ctx).step t a.label = some r := by
  simp only [runner, stepIncident] at h
  cases a with
  | stream env => exact h
  | approveIncident approved comment env =>
    simp only at h
    split at h
    · exact h
    · cases h

/-- The runs of the runner are runs of the graph. -/
theorem runner_run {C : Thread → RunnerStep → Prop} {n : Nat} {es : List Event}
    (hr : (runner ctx).Run C n es t) : (graph ctx).Run Sys.anyStep n es t := by
  refine hr.simulate RunnerStep.label ?_ fun s a r hs => runner_step r hs
  rintro s ⟨metadata, now, rfl⟩
  exact ⟨metadata, 3, now, rfl, rfl⟩

/-! ## The run metrics -/

/-- The wait for an approval that `approve_node` measures. -/
def waits : Event → List PyFloat
  | .approvalWait seconds => [seconds]
  | _ => []

/-- The backoffs of an incident. -/
def backoffsOf (es : List Event) : List PyFloat :=
  (es.flatMap Event.backoffs).filter (PyFloat.lt .zero)

/-- The waits for an approval of an incident. -/
def waitsOf (es : List Event) : List PyFloat := es.flatMap waits

/-- The sum in the order of the list. -/
def total (xs : List PyFloat) : PyFloat := xs.foldl PyFloat.add .zero

theorem total_zeros {xs : List PyFloat} (h : ∀ x ∈ xs, x = .zero) : total xs = .zero := by
  induction xs with
  | nil => rfl
  | cons x xs ih =>
    obtain rfl := h x List.mem_cons_self
    have hadd : PyFloat.zero.add .zero = .zero := by decide +kernel
    rw [total, List.foldl_cons, hadd]
    exact ih fun y hy => h y (List.mem_cons_of_mem _ hy)

/-- A counter adds the positive ones of the seconds of the events. -/
theorem foldl_record {field : RunMetrics → PyFloat} {seconds : Event → List PyFloat}
    (h : ∀ m e, field (m.record e) = (seconds e).foldl RunMetrics.addPositive (field m))
    (log : List Event) (m : RunMetrics) :
    field (log.foldl RunMetrics.record m) =
      ((log.flatMap seconds).filter (PyFloat.lt .zero)).foldl PyFloat.add (field m) := by
  rw [List.foldl_filter]
  show _ = (log.flatMap seconds).foldl RunMetrics.addPositive (field m)
  induction log generalizing m with
  | nil => rfl
  | cons e log ih => rw [List.foldl_cons, ih, h, List.flatMap_cons, List.foldl_append]

theorem record_backoffs (m : RunMetrics) (e : Event) :
    (m.record e).backoffSeconds = e.backoffs.foldl RunMetrics.addPositive m.backoffSeconds := by
  cases e with
  | llmCall backoffs latency =>
    exact (List.foldl_hom RunMetrics.backoffSeconds fun _ _ => rfl).symm
  | _ => rfl

theorem record_waits (m : RunMetrics) (e : Event) :
    (m.record e).approvalWaitSeconds =
      (waits e).foldl RunMetrics.addPositive m.approvalWaitSeconds := by
  cases e with
  | llmCall backoffs latency =>
    show (backoffs.foldl RunMetrics.recordBackoff m).approvalWaitSeconds = m.approvalWaitSeconds
    induction backoffs generalizing m with
    | nil => rfl
    | cons b backoffs ih => exact ih (m.recordBackoff b)
  | _ => rfl

theorem backoffsOf_node (es log : List Event) (p : Phase) :
    backoffsOf (es ++ .node p :: log) = backoffsOf es ++ backoffsOf log := by
  simp [backoffsOf, Event.backoffs]

theorem waitsOf_node (es log : List Event) (p : Phase) :
    waitsOf (es ++ .node p :: log) = waitsOf es ++ waitsOf log := by
  simp [waitsOf, waits]

theorem total_append (xs ys : List PyFloat) :
    total (xs ++ ys) = ys.foldl PyFloat.add (total xs) := by
  simp [total]

/-! ## What the nodes log -/

theorem afterResume_log (env : NodeEnv) (s : AgentState) (requestedAt : PyFloat) (decision : Json) :
    (afterResume env s requestedAt decision).log =
      [.resumed decision, .approvalWait (env.now.sub requestedAt)] := by
  unfold afterResume
  simp only [Traced.emit_bind]
  split <;> rfl

/-- Only a resumed `approve_node` logs a wait: the time since the approval was requested. -/
theorem approveNode_wait {env : NodeEnv} {resume : Option Json} {s : AgentState} {w : PyFloat}
    (h : .approvalWait w ∈ (approveNode env resume s).log) :
    resume ≠ none ∧ ∃ requestedAt, s.approvalRequestedAt = some requestedAt ∧
      w = env.now.sub requestedAt := by
  unfold approveNode at h
  split at h
  · cases h
  split at h
  · cases h
  · cases h
  split at h
  · cases h
  rename_i requestedAt hat
  split at h
  · cases h
  split at h
  · rw [afterResume_log] at h
    exact ⟨nofun, requestedAt, hat, by simpa using h⟩
  · have hm : Event.approvalWait w ∈ [Event.interrupt _] := h
    simp at hm

/-- A node logs a wait only when it is resumed. -/
theorem runNode_waits {env : NodeEnv} {resume : Option Json} {metrics : Option RunMetrics}
    {p : Phase} {s : AgentState} {w : PyFloat}
    (h : w ∈ waitsOf (runNode ctx env resume metrics p s).log) :
    resume ≠ none ∧ ∃ requestedAt, s.approvalRequestedAt = some requestedAt ∧
      w = env.now.sub requestedAt := by
  obtain ⟨e, he, hw⟩ := List.mem_flatMap.mp h
  cases e with
  | approvalWait seconds =>
    obtain rfl := List.mem_singleton.mp hw
    obtain rfl : p = .approve := runNode_source env resume metrics p s _ he
    exact approveNode_wait he
  | _ => cases hw

/-- A node logs no backoff if it does not call the language model, or the call has none. -/
theorem runNode_backoffs {env : NodeEnv} {resume : Option Json} {metrics : Option RunMetrics}
    {p : Phase} {s : AgentState}
    (h : (llmEvent env).source p → ∀ b ∈ env.llm.backoffs, PyFloat.lt .zero b = false) :
    backoffsOf (runNode ctx env resume metrics p s).log = [] := by
  rw [backoffsOf, List.filter_eq_nil_iff]
  intro b hb
  obtain ⟨e, he, hb⟩ := List.mem_flatMap.mp hb
  have hlog := runNode_log env resume metrics p s e he
  cases e with
  | llmCall backoffs latency => simp [h hlog.source b (hlog.backoffs b hb)]
  | _ => cases hb

/-! ## Timing -/

/-- The wall clock of `complete_node`. -/
def wallClock (startedAt now : PyFloat) : PyFloat :=
  if PyFloat.lt .zero startedAt then PyFloat.max (.ofRat (mkRat 1 1000)) (now.sub startedAt)
  else .zero

/-- The timing of the final state, by the backoffs and the waits of the incident. -/
structure Accounted (es : List Event) (s : AgentState) : Prop where
  backoff : s.backoffSeconds = (total (backoffsOf es)).round3
  approvalWait : s.approvalWaitSeconds = (total (waitsOf es)).round3
  active : ∃ now, s.wallClockSeconds = (wallClock s.startedAt now).round3 ∧
    s.activeSeconds = (PyFloat.max .zero
      (((wallClock s.startedAt now).sub (total (backoffsOf es))).sub (total (waitsOf es)))).round3

/-- The step drops no backoff and no wait. -/
def MetricsKept (t : Thread) : RunnerStep → Prop
  | .stream env => t.metrics = none → ∀ p, t.next = .node p → (llmEvent env).source p →
    ∀ b ∈ env.llm.backoffs, PyFloat.lt .zero b = false
  | .approveIncident _ _ env => (t.metrics.getD {}).backoffSeconds = .zero ∧
    ∀ requestedAt, t.values.approvalRequestedAt = some requestedAt →
      env.now.sub requestedAt = .zero

/-- The metrics hold the backoffs of the incident, and there is no wait. -/
structure Metered (es : List Event) (t : Thread) : Prop where
  backoffSeconds : total (backoffsOf es) = (t.metrics.getD {}).backoffSeconds
  noWait : ∀ w ∈ waitsOf es, w = .zero
  waitSeconds : (t.metrics.getD {}).approvalWaitSeconds = .zero

/-- A step with the metrics of the run records what it logs. -/
theorem Metered.record {es log : List Event} {p : Phase} (hm : Metered es t)
    (hb : t.metrics = none → backoffsOf log = []) (hw : waitsOf log = [])
    (ht : t'.metrics = t.metrics.map fun m => log.foldl RunMetrics.record m) :
    Metered (es ++ .node p :: log) t' := by
  obtain ⟨hback, hno, hwait⟩ := hm
  cases hmet : t.metrics with
  | none =>
    rw [hmet] at hback ht
    refine ⟨?_, ?_, by rw [ht]; rfl⟩
    · rw [backoffsOf_node, hb hmet, List.append_nil, hback, ht]
      rfl
    · rwa [waitsOf_node, hw, List.append_nil]
  | some m =>
    rw [hmet] at hback hwait ht
    have hrec := foldl_record record_waits log m
    rw [show log.flatMap waits = [] from hw] at hrec
    refine ⟨?_, ?_, ?_⟩
    · rw [backoffsOf_node, total_append, hback, ht]
      exact (foldl_record record_backoffs log m).symm
    · rwa [waitsOf_node, hw, List.append_nil]
    · rw [ht]
      exact hrec.trans hwait

/-- A step without metrics drops nothing, when there was no backoff and it measures no wait. -/
theorem Metered.drop {es log : List Event} {p : Phase} (hm : Metered es t)
    (h₀ : (t.metrics.getD {}).backoffSeconds = .zero) (hb : backoffsOf log = [])
    (hw : ∀ w ∈ waitsOf log, w = .zero) (ht : t'.metrics = none) :
    Metered (es ++ .node p :: log) t' := by
  refine ⟨?_, fun w hmem => ?_, by rw [ht]; rfl⟩
  · rw [backoffsOf_node, hb, List.append_nil, hm.backoffSeconds, h₀, ht]
    rfl
  · rw [waitsOf_node] at hmem
    exact (List.mem_append.mp hmem).elim (hm.noWait w) (hw w)

/-- `complete_node` writes what the metrics hold. -/
theorem Metered.accounted {es : List Event} (hm : Metered es t) (env : NodeEnv) {s : AgentState}
    (h : (completeNode env t.metrics t.values).out = .ok s) :
    Accounted (es ++ [.node .complete]) s := by
  have hb : total (backoffsOf (es ++ [.node .complete])) = (t.metrics.getD {}).backoffSeconds := by
    rw [backoffsOf_node, ← hm.backoffSeconds]
    exact congrArg total (List.append_nil _)
  have hw : total (waitsOf (es ++ [.node .complete])) =
      (t.metrics.getD {}).approvalWaitSeconds := by
    rw [waitsOf_node, hm.waitSeconds]
    exact total_zeros fun w hw => hm.noWait w (by simpa [waitsOf] using hw)
  cases h
  exact ⟨by rw [hb], by rw [hw], env.now, rfl, by rw [hb, hw]; rfl⟩

/-- A step keeps the metrics, and the last one writes them. -/
theorem metered_step {es : List Event} (hm : Metered es t) (hc : MetricsKept t a)
    (h : (runner ctx).step t a = some (t', fs)) :
    Metered (es ++ fs) t' ∧ (t'.next = .done → Accounted (es ++ fs) t'.values) := by
  have hstep := runner_step _ h
  cases a with
  | stream env =>
    obtain ⟨p, hn, hstep⟩ := step_run hstep
    obtain ⟨rfl, rfl⟩ := Prod.mk.inj hstep
    refine ⟨hm.record (fun hnone => runNode_backoffs (hc hnone p hn)) ?_ rfl, fun hd => ?_⟩
    · exact List.eq_nil_iff_forall_not_mem.mpr fun w hw => (runNode_waits hw).1 rfl
    · obtain rfl := complete_of_step hstep hd
      exact hm.accounted env rfl
  | approveIncident approved comment env =>
    obtain ⟨-, hstep⟩ := step_resume hstep
    obtain ⟨rfl, rfl⟩ := Prod.mk.inj hstep
    refine ⟨hm.drop hc.1 (runNode_backoffs ?_) (fun w hw => ?_) rfl, fun hd => ?_⟩
    · -- `approve_node` does not call the language model.
      simp [llmEvent, Event.source]
    · obtain ⟨-, requestedAt, hat, rfl⟩ := runNode_waits hw
      exact hc.2 requestedAt hat
    · cases complete_of_step hstep hd

/-- In a run whose resumptions drop no backoff and no wait, the final timing is right. -/
theorem timing_accounted {n : Nat} {es : List Event} (hr : (runner ctx).Run MetricsKept n es t)
    (hd : t.next = .done) : Accounted es t.values := by
  have key : Metered es t ∧ (t.next = .done → Accounted es t.values) := by
    refine hr.inv (I := fun es t => Metered es t ∧ (t.next = .done → Accounted es t.values))
      (fun s hi => ?_) fun n es s a s' fs _ hi hc hs => metered_step hi.1 hc hs
    obtain ⟨metadata, now, rfl⟩ := hi
    exact ⟨⟨rfl, nofun, rfl⟩, nofun⟩
  exact key.2 hd

/-! ### The sample incidents -/

/-- The environment, where each call of the language model waits two seconds. -/
def withBackoff (env : NodeEnv) : NodeEnv :=
  { env with llm := { env.llm with backoffs := [.finite 2] } }

/-- A new incident. -/
def newIncident : Thread := prepareIncident sampleMetadata (.finite 1)

theorem newIncident_prepared : Prepared newIncident := ⟨sampleMetadata, .finite 1, rfl⟩

/-- The step is no resumption, and the thread has its run metrics. -/
def checkMetrics (t : Thread) : RunnerStep → Bool
  | .stream _ => t.metrics.isSome
  | .approveIncident .. => false

theorem metricsKept_of_check (t : Thread) (a : RunnerStep) (h : checkMetrics t a = true) :
    MetricsKept t a := by
  cases a with
  | stream env =>
    intro hnone
    simp [checkMetrics, hnone] at h
  | approveIncident approved comment env => cases h

/-- An incident whose backoffs are written. -/
theorem timing_accounted_restart :
    ∃ n es t, (runner restartContext).Run MetricsKept n es t ∧ t.next = .done ∧
      t.values.backoffSeconds ≠ .zero ∧ Accounted es t.values := by
  have hexec : (((runner restartContext).restrict checkMetrics).exec newIncident
      (List.replicate 7 (.stream (withBackoff (restartEnv []))))).any
      (fun r => endsAs .resolved r && r.1.values.backoffSeconds != .zero) = true := by
    decide +kernel
  obtain ⟨t, es, hr, hc⟩ := Sys.exists_checked_run metricsKept_of_check newIncident_prepared hexec
  simp only [Bool.and_eq_true, bne_iff_ne] at hc
  have hd := (of_endsAs hc.1).1
  exact ⟨_, es, t, hr, hd, hc.2, timing_accounted hr hd⟩

/-- An incident that is approved after three seconds. -/
def approvedLabels : List RunnerStep :=
  List.replicate 6 (.stream (withBackoff (sampleEnv (sampleAnswer "flush_all" 2)))) ++
    .approveIncident true "" { sampleEnv .null with now := .finite 5 } ::
      List.replicate 3 (.stream { sampleEnv .null with now := .finite 5 })

/-- The final state tells of no backoff and of no wait, although there were both. -/
def droppedTiming (r : Thread × List Event) : Bool :=
  endsAs .resolved r && r.1.values.backoffSeconds == .zero &&
    (total (backoffsOf r.2)).round3 != .zero && r.1.values.approvalWaitSeconds == .zero &&
    (total (waitsOf r.2)).round3 != .zero

/-- After an approval the final state has neither the backoffs before it nor the wait. -/
theorem timing_dropped :
    ¬ ∀ (ctx : GraphContext) (n : Nat) (es : List Event) (t : Thread),
      (runner ctx).Run Sys.anyStep n es t → t.next = .done → Accounted es t.values := by
  intro hall
  have hexec : ((runner flushContext).exec newIncident approvedLabels).any droppedTiming =
      true := by
    decide +kernel
  obtain ⟨t, es, hr, hc⟩ := Sys.exists_any_run newIncident_prepared hexec
  simp only [droppedTiming, Bool.and_eq_true, beq_iff_eq, bne_iff_ne] at hc
  obtain ⟨⟨⟨⟨hend, -⟩, -⟩, hzero⟩, hne⟩ := hc
  have hacc := hall _ _ es t hr (of_endsAs hend).1
  exact hne (hacc.approvalWait.symm.trans hzero)

end Api
end AutoSRE
