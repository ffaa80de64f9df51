import AutoSRE.Api.Runner
import AutoSRE.Core.Proposals
import AutoSRE.Core.Router

/-!
# The budget of calls of an incident

- **Metered incidents** (`metered`). An incident under the runner, whose calls of the language model
  go through the router: the answer that a node gets is the one that the router gives. The physical
  calls are logged (`CallEvent.acompletion`).
- **The budget** (`Budgeted`). As long as the run has its metrics, they count the physical calls and
  the router keeps within the budget. `approve_incident` resumes the run without metrics; only
  `propose_node` then calls the language model (`unmetered_next`).
- **The bound** (`calls_within_budget`). The budget is kept when the calls that `propose_node` can
  make after a resumption still fit in it, and exceeded otherwise (`budget_exceeded`).
-/

namespace AutoSRE
namespace Api

open Lib Py Safety Tools AutoSRE.Core

/-! ## Metered incidents -/

/-- What a metered incident logs. -/
inductive CallEvent where
  | graph (e : Event)
  /-- A physical call, `litellm.acompletion`. -/
  | acompletion (model : String)

/-- A physical call. -/
def CallEvent.isPhysical : CallEvent → Bool
  | .graph _ => false
  | .acompletion _ => true

/-- The number of physical calls. -/
def physicalCalls (es : List CallEvent) : Nat := es.countP CallEvent.isPhysical

/-- An incident: its thread, `llm_call_count` of its run metrics, and how many physical calls were
made for it, which the code does not know. -/
structure MeteredIncident where
  thread : Thread
  llmCallCount : Nat
  made : Nat

/-- A step of a metered incident. -/
inductive MeteredStep where
  | stream (env : NodeEnv) (router : RouterEnv)
  | approveIncident (approved : Bool) (comment : String) (env : NodeEnv)

/-- A node calls the language model. -/
def isLlmCall : Event → Bool
  | .llmCall .. => true
  | _ => false

/-- The alias with which a node calls the router. -/
def aliasOf : Phase → String
  | .investigate => "worker"
  | _ => "coordinator"

section metered

variable (cfg : RouterConfig) (ctx : GraphContext)

/-- The models of a request. -/
def rotationOf (p : Phase) : List String := buildModelRotation cfg (resolveModel cfg (aliasOf p))

/-- The request of the node `p`. -/
def requestOf (s : MeteredIncident) (router : RouterEnv) (p : Phase) : LlmOutcome × CallState :=
  callModels cfg router (rotationOf cfg p)
    { llmCallCount := s.thread.metrics.map fun _ => s.llmCallCount }

/-- The environment in which the language model gives what the router gives. -/
def withRequest (env : NodeEnv) (request : LlmOutcome × CallState) : NodeEnv :=
  { env with llm := { env.llm with outcome := request.1, backoffs := request.2.backoffs } }

/-- The events of a step, with the physical calls before the end of the request. -/
def logCalls (calls : List String) (fs : List Event) : List CallEvent :=
  fs.flatMap fun e =>
    if isLlmCall e then calls.map .acompletion ++ [.graph e] else [.graph e]

/-- The step of an incident. -/
def stepMetered (s : MeteredIncident) : MeteredStep → Option (MeteredIncident × List CallEvent)
  | .stream env router =>
    match s.thread.next with
    | .node p =>
      let request := requestOf cfg s router p
      (stepIncident ctx s.thread (.stream (withRequest env request))).map fun r =>
        let es := logCalls request.2.calls r.2
        ({ thread := r.1
           llmCallCount :=
            if r.2.any isLlmCall then request.2.llmCallCount.getD 0 else s.llmCallCount
           made := s.made + physicalCalls es }, es)
    | _ => none
  | .approveIncident approved comment env =>
    (stepIncident ctx s.thread (.approveIncident approved comment env)).map fun r =>
      let es := logCalls [] r.2
      ({ s with thread := r.1, made := s.made + physicalCalls es }, es)

/-- A new incident: its metrics have counted nothing. -/
def NewMetered (s : MeteredIncident) : Prop :=
  Prepared s.thread ∧ s.llmCallCount = 0 ∧ s.made = 0

/-- An incident whose calls of the language model go through the router. -/
def metered : Sys MeteredIncident MeteredStep CallEvent where
  init := NewMetered
  step := stepMetered cfg ctx

/-! ## The condition -/

/-- The physical calls that a request can make at most. -/
def attemptBound (router : RouterEnv) (p : Phase) : Nat :=
  (rotationOf cfg p).countP (fun m => !skips router m) * (cfg.maxRetries + 1)

/-- When `propose_node` calls the language model without run metrics, the calls that it can make
still fit in the budget. -/
def FitsUnmetered (s : MeteredIncident) (a : MeteredStep) : Prop :=
  ∀ env router confidence category, a = .stream env router → s.thread.metrics = none →
    s.thread.next = .node .propose → Asks ctx s.thread.values confidence category →
    s.made + attemptBound cfg router .propose ≤ cfg.maxLlmCallsPerIncident

variable {cfg ctx}

/-! ## What a step logs -/

variable (ctx) in
/-- A node calls the language model at most once. -/
theorem runNode_llmCalls (env : NodeEnv) (resume : Option Json) (metrics : Option RunMetrics)
    (p : Phase) (s : AgentState) :
    (runNode ctx env resume metrics p s).log.countP isLlmCall ≤ 1 := by
  have hx := runNode_exit ctx env s resume metrics p
  generalize runNode ctx env resume metrics p s = run at hx
  cases p with
  | triage => cases hx <;> simp [llmEvent, isLlmCall]
  | investigate =>
    cases hx with
    | evidence _ log _ _ hlog | gathered _ _ log _ _ hlog =>
      rcases hlog with rfl | ⟨call, args, -, -, rfl⟩ <;>
        simp [llmEvent, isLlmCall, List.countP_cons]
    | _ => simp [llmEvent, isLlmCall]
  | hypothesize => cases hx <;> simp [llmEvent, isLlmCall]
  | propose =>
    cases hx with
    | nothing log _ _ hlog _ => rcases hlog with rfl | rfl <;> simp [llmEvent, isLlmCall]
    | _ => simp [llmEvent, isLlmCall, List.countP_cons]
  | approve => cases hx <;> simp [isLlmCall]
  | execute =>
    cases hx with
    | returned p ps action r _ _ _ _ _ | raised p ps action r _ _ _ _ _ =>
      simp [isLlmCall, List.countP_map, Function.comp_def]
    | _ => simp
  | verify => cases hx <;> simp
  | complete =>
    obtain ⟨_, _, _, _, _, he⟩ := completeNode_eq env s metrics
    simp [show run = _ from hx, he]

theorem physicalCalls_logCalls (calls : List String) (fs : List Event) :
    physicalCalls (logCalls calls fs) = fs.countP isLlmCall * calls.length := by
  induction fs with
  | nil => simp [logCalls, physicalCalls]
  | cons e fs ih =>
    have hcons : logCalls calls (e :: fs) =
        (if isLlmCall e then calls.map .acompletion ++ [.graph e] else [.graph e]) ++
          logCalls calls fs := rfl
    have hphys : ∀ es₁ es₂, physicalCalls (es₁ ++ es₂) = physicalCalls es₁ + physicalCalls es₂ :=
      fun _ _ => List.countP_append
    rw [hcons, hphys, ih, List.countP_cons]
    cases isLlmCall e with
    | true =>
      simp only [if_true, physicalCalls, List.countP_append, List.countP_map]
      simp [CallEvent.isPhysical, Function.comp_def, Nat.add_mul, Nat.add_comm]
    | false => simp [physicalCalls, CallEvent.isPhysical]

/-- The node calls the language model only when it asks. -/
theorem asks_of_llmCall {env : NodeEnv} {s : AgentState} {confidence : PyFloat} {category : String}
    (hc : topConfidence s.hypotheses = .ok confidence)
    (hcat : proposeCategory s.incidentMetadata = .ok category)
    (h : (proposeNode ctx env s).log.any isLlmCall = true) : Asks ctx s confidence category := by
  have hx := proposeNode_ask ctx env s hc hcat
  generalize proposeNode ctx env s = run at hx h
  cases hx with
  | ended _ he =>
    obtain ⟨status, usage, rfl⟩ := he
    simp at h
  | schema exc _ _ => simp at h
  | nothing _ hasks _ _ _ => exact hasks
  | checked _ _ _ hasks _ _ _ => exact hasks

/-! ## The invariant -/

/-- The nodes that a run can execute after a resumption. -/
def afterResumption : List Phase := [.propose, .approve, .execute, .verify, .complete]

/-- The budget is kept, and a run with metrics has counted its physical calls. -/
structure Budgeted (cfg : RouterConfig) (s : MeteredIncident) : Prop where
  within : s.made ≤ cfg.maxLlmCallsPerIncident
  counted : s.thread.metrics ≠ none → s.llmCallCount = s.made
  unmetered : s.thread.metrics = none → ∀ p, s.thread.next = .node p → p ∈ afterResumption

/-- After a resumption there are no metrics, and of the nodes that call the language model only
`propose_node` is left. -/
theorem unmetered_next {t t' : Thread} {a : Label} {fs : List Event}
    (h : (graph ctx).step t a = some (t', fs))
    (ht : t.next = .paused ∨ ∀ p, t.next = .node p → p ∈ afterResumption) :
    ∀ p, t'.next = .node p → p ∈ afterResumption := by
  obtain ⟨q, hq, hsucc⟩ := step_edge h
  have hmem : q ∈ afterResumption := by
    rcases hq with hq | ⟨-, rfl⟩
    · rcases ht with ht | ht
      · rw [ht] at hq
        cases hq
      · exact ht q hq
    · simp [afterResumption]
  intro p hp
  have hp' := hsucc p hp
  cases q <;> simp [afterResumption, successors] at hmem hp' ⊢ <;> grind

/-- A step logs the physical calls of one request, or none. -/
theorem step_calls {t t' : Thread} {a : Label} {fs : List Event}
    (h : (graph ctx).step t a = some (t', fs)) (calls : List String) :
    physicalCalls (logCalls calls fs) = if fs.any isLlmCall then calls.length else 0 := by
  obtain ⟨p, env, resume, metrics, hstep, -⟩ := step_cases h
  have hle := runNode_llmCalls ctx env resume metrics p t.values
  obtain ⟨-, rfl⟩ := Prod.mk.inj hstep
  generalize (runNode ctx env resume metrics p t.values).log = log at hle
  simp only [physicalCalls_logCalls, List.countP_cons, isLlmCall, List.any_cons, Bool.false_or]
  by_cases hany : log.any isLlmCall = true
  · have hpos : 0 < log.countP isLlmCall := by
      obtain ⟨e, hm, he⟩ := List.any_eq_true.mp hany
      exact List.countP_pos_iff.mpr ⟨e, hm, he⟩
    have hone : log.countP isLlmCall = 1 := by omega
    simp [hany, hone]
  · have hzero : log.countP isLlmCall = 0 := by
      rw [List.countP_eq_zero]
      intro e hm he
      exact hany (List.any_eq_true.mpr ⟨e, hm, he⟩)
    simp [hany, hzero]

/-- A node of the stream neither gets nor drops metrics. -/
theorem stream_metrics {t t' : Thread} {env : NodeEnv} {fs : List Event}
    (h : (graph ctx).step t (.run env) = some (t', fs)) : t'.metrics = none ↔ t.metrics = none := by
  obtain ⟨p, -, hstep⟩ := step_run h
  obtain ⟨rfl, -⟩ := Prod.mk.inj hstep
  simp

/-- After a resumption only `propose_node` calls the language model, when it asks. -/
theorem step_asks {t t' : Thread} {env : NodeEnv} {fs : List Event} {p : Phase}
    (h : (graph ctx).step t (.run env) = some (t', fs)) (hn : t.next = .node p)
    (hp : p ∈ afterResumption) (hs : Sound ctx t) (hany : fs.any isLlmCall = true) :
    p = .propose ∧ ∃ confidence category, Asks ctx t.values confidence category := by
  obtain ⟨e, hm, he⟩ := List.any_eq_true.mp hany
  obtain rfl : p = .propose := by
    obtain ⟨q, rest, hq, rfl, hsrc, -⟩ := step_frame h
    have hqp : q = p := hq.eq (.inl hn)
    subst hqp
    rcases List.mem_cons.mp hm with rfl | hm
    · cases he
    · cases e with
      | llmCall backoffs latency =>
        have hsource := (hsrc _ hm).1
        simp only [Event.source] at hsource
        simp only [afterResumption, List.mem_cons, List.not_mem_nil, or_false] at hp
        rcases hsource with rfl | rfl | rfl | rfl <;> simp_all
      | _ => cases he
  obtain ⟨confidence, hc⟩ := hs.floatable
  obtain ⟨m, hmd⟩ := hs.metadata
  obtain ⟨category, hcat⟩ := proposeCategory_modelDump m
  rw [← hmd] at hcat
  refine ⟨rfl, confidence, category, ?_⟩
  obtain ⟨env', ha, hstep⟩ := step_node h hn
  obtain ⟨-, rfl⟩ := Prod.mk.inj hstep
  rcases List.mem_cons.mp hm with rfl | hm
  · cases he
  · exact asks_of_llmCall hc hcat (List.any_eq_true.mpr ⟨e, hm, he⟩)

/-- What a node of the stream does to an incident. -/
theorem metered_stream {s s' : MeteredIncident} {env : NodeEnv} {router : RouterEnv}
    {es : List CallEvent} (h : stepMetered cfg ctx s (.stream env router) = some (s', es)) :
    ∃ p request fs, s.thread.next = .node p ∧ request = requestOf cfg s router p ∧
      (graph ctx).step s.thread (.run (withRequest env request)) = some (s'.thread, fs) ∧
      es = logCalls request.2.calls fs ∧ s'.made = s.made + physicalCalls es ∧
      s'.llmCallCount =
        if fs.any isLlmCall then request.2.llmCallCount.getD 0 else s.llmCallCount := by
  simp only [stepMetered] at h
  split at h
  · rename_i p hn
    obtain ⟨⟨t', fs⟩, hstep, he⟩ := Option.map_eq_some_iff.mp h
    obtain ⟨rfl, rfl⟩ := Prod.mk.inj he
    have hrunner : (runner ctx).step s.thread
        (.stream (withRequest env (requestOf cfg s router p))) = some (t', fs) := hstep
    exact ⟨p, _, fs, hn, rfl, runner_step _ hrunner, rfl, rfl, rfl⟩
  · cases h

/-- A node of the stream keeps the budget. -/
theorem budgeted_stream {s s' : MeteredIncident} {env : NodeEnv} {router : RouterEnv}
    {es : List CallEvent} (hb : Budgeted cfg s) (hsound : Crashed s.thread ∨ Sound ctx s.thread)
    (hc : FitsUnmetered cfg ctx s (.stream env router))
    (h : stepMetered cfg ctx s (.stream env router) = some (s', es)) : Budgeted cfg s' := by
  obtain ⟨p, request, fs, hn, hreq, hstep, rfl, hmade, hcount'⟩ := metered_stream h
  obtain ⟨hwithin, hcounted, hunmetered⟩ := hb
  have hsound := hsound.resolve_left (not_crashed_node hn)
  have hmetrics := stream_metrics hstep
  rw [step_calls hstep] at hmade
  obtain ⟨⟨models, hmodels, hlen, hcount⟩, hbudget⟩ := callModels_within cfg router
    (rotationOf cfg p) { llmCallCount := s.thread.metrics.map fun _ => s.llmCallCount }
  rw [show callModels cfg router (rotationOf cfg p)
    { llmCallCount := s.thread.metrics.map fun _ => s.llmCallCount } = request from hreq.symm]
    at hmodels hcount hbudget
  have hcalls : request.2.calls = models := by simpa using hmodels
  rw [hcalls] at hmade
  have hnext : s'.thread.metrics = none → ∀ q, s'.thread.next = .node q → q ∈ afterResumption :=
    fun hnone => unmetered_next hstep (.inr (hunmetered (hmetrics.mp hnone)))
  by_cases hany : fs.any isLlmCall = true
  · rw [if_pos hany] at hmade hcount'
    cases hm : s.thread.metrics with
    | none =>
      obtain ⟨rfl, confidence, category, hasks⟩ :=
        step_asks hstep hn (hunmetered hm p hn) hsound hany
      have hfits := hc env router confidence category rfl hm hn hasks
      unfold attemptBound at hfits
      exact ⟨by omega, fun hsome => absurd (hmetrics.mpr hm) hsome, hnext⟩
    | some m =>
      simp only [hm, Option.map_some] at hcount hbudget
      have hmade₀ : s.llmCallCount = s.made := hcounted (by simp [hm])
      have hle := hbudget s.llmCallCount _ rfl (by omega) hcount
      rw [hcount, Option.getD_some] at hcount'
      exact ⟨by omega, fun _ => by omega, hnext⟩
  · rw [if_neg hany] at hmade hcount'
    refine ⟨by omega, fun hsome => ?_, hnext⟩
    have hmade₀ := hcounted fun hnone => hsome (hmetrics.mpr hnone)
    omega

/-- A resumption makes no physical call. -/
theorem budgeted_approve {s s' : MeteredIncident} {approved : Bool} {comment : String}
    {env : NodeEnv} {es : List CallEvent} (hb : Budgeted cfg s)
    (h : stepMetered cfg ctx s (.approveIncident approved comment env) = some (s', es)) :
    Budgeted cfg s' := by
  simp only [stepMetered] at h
  obtain ⟨⟨t', fs⟩, hstep, he⟩ := Option.map_eq_some_iff.mp h
  obtain ⟨rfl, rfl⟩ := Prod.mk.inj he
  have hrunner : (runner ctx).step s.thread (.approveIncident approved comment env) =
    some (t', fs) := hstep
  have hgraph := runner_step _ hrunner
  obtain ⟨hpaused, heq⟩ := step_resume hgraph
  have hcalls := step_calls hgraph []
  have hmade : s.made + physicalCalls (logCalls [] fs) = s.made := by
    rw [hcalls]
    split <;> rfl
  have hmetrics : t'.metrics = none := by
    obtain ⟨rfl, -⟩ := Prod.mk.inj heq
    rfl
  exact ⟨by simpa only [hmade] using hb.within, fun hsome => absurd hmetrics hsome,
    fun _ => unmetered_next hgraph (.inl hpaused)⟩

/-- The thread of a metered run is a thread of the graph. -/
theorem metered_sound {C : MeteredIncident → MeteredStep → Prop} {n : Nat} {es : List CallEvent}
    {s : MeteredIncident} (hr : (metered cfg ctx).Run C n es s) :
    Crashed s.thread ∨ Sound ctx s.thread := by
  refine hr.stateInv (I := fun s => Crashed s.thread ∨ Sound ctx s.thread) (fun s hi => ?_)
    fun s a s' fs hs _ h => ?_
  · obtain ⟨⟨metadata, now, ht⟩, -⟩ := hi
    exact .inr (sound_init ⟨metadata, 3, now, by rw [ht]; rfl, by rw [ht]; rfl⟩).1
  · have hstep : ∃ b gs, (graph ctx).step s.thread b = some (s'.thread, gs) := by
      cases a with
      | stream env router =>
        obtain ⟨_, _, fs', _, _, hstep, -⟩ := metered_stream h
        exact ⟨_, fs', hstep⟩
      | approveIncident approved comment env =>
        simp only [metered, stepMetered] at h
        obtain ⟨⟨t', gs⟩, hstep, he⟩ := Option.map_eq_some_iff.mp h
        obtain ⟨rfl, -⟩ := Prod.mk.inj he
        exact ⟨_, gs, runner_step (a := .approveIncident approved comment env) _ hstep⟩
    obtain ⟨b, gs, hstep⟩ := hstep
    rcases step_progress (hs.resolve_left (not_crashed_of_step hstep)) hstep with ha | ⟨hc, -⟩
    · exact .inr ha.sound
    · exact .inl hc

/-- The physical calls of an incident are within its budget, when those that `propose_node` can make
after a resumption still fit in it. -/
theorem calls_within_budget {n : Nat} {es : List CallEvent} {s : MeteredIncident}
    (hr : (metered cfg ctx).Run (FitsUnmetered cfg ctx) n es s) :
    physicalCalls es ≤ cfg.maxLlmCallsPerIncident := by
  have key : s.made = physicalCalls es ∧ Budgeted cfg s := by
    refine hr.inv (I := fun es s => s.made = physicalCalls es ∧ Budgeted cfg s) (fun s hi => ?_)
      fun n es s a s' fs hr hi hc hs => ?_
    · obtain ⟨⟨metadata, now, ht⟩, hcount, hmade⟩ := hi
      refine ⟨hmade, by omega, fun _ => by omega, fun hnone => ?_⟩
      rw [ht] at hnone
      cases hnone
    · have hsound := metered_sound hr
      have hadd : s'.made = s.made + physicalCalls fs := by
        cases a with
        | stream env router =>
          obtain ⟨_, _, _, _, _, _, _, hmade, -⟩ := metered_stream hs
          exact hmade
        | approveIncident approved comment env =>
          simp only [metered, stepMetered] at hs
          obtain ⟨⟨t', gs⟩, -, he⟩ := Option.map_eq_some_iff.mp hs
          obtain ⟨rfl, rfl⟩ := Prod.mk.inj he
          rfl
      refine ⟨?_, ?_⟩
      · rw [hadd, hi.1]
        exact List.countP_append.symm
      · cases a with
        | stream env router => exact budgeted_stream hi.2 hsound hc hs
        | approveIncident approved comment env => exact budgeted_approve hi.2 hs
  exact key.1 ▸ key.2.within

end metered

/-! ### The sample incidents -/

/-- A router with one model, without retries. -/
def sampleRouterConfig (budget : Nat) (h : 0 < budget := by decide) : RouterConfig where
  fastModel := "flash"
  slowModel := "flash"
  maxRetries := 0
  maxLlmCallsPerIncident := budget
  fast_ne := by decide
  slow_ne := by decide
  budget_pos := h

/-- Every physical call gives the answer. -/
def answering (answer : Json) : RouterEnv where
  attempt _ _ :=
    .response { modelUsed := "flash", model := "flash", usage := .missing, payload := some answer }

/-- A stream step whose answer proposes a `flush_all` for a reason. -/
def flushStep (reason : String) : MeteredStep :=
  .stream (sampleEnv .null) (answering (sampleAnswer "flush_all" 2 [("reason", .str reason)]))

/-- The steps of an incident whose first `flush_all` is approved and not verified, and that proposes
another one. -/
def secondProposal : List MeteredStep :=
  List.replicate 6 (flushStep "eviction storm") ++
    [.approveIncident true "" (sampleEnv .null),
      .stream (unverifiedEnv .null) (answering .null), .stream (sampleEnv .null) (answering .null),
      flushStep "memory pressure"]

/-- The calls that a request without metrics can make fit in the budget. -/
def checkFits (cfg : RouterConfig) (s : MeteredIncident) : MeteredStep → Bool
  | .stream _ router =>
    s.thread.metrics.isSome ||
      decide (s.made + attemptBound cfg router .propose ≤ cfg.maxLlmCallsPerIncident)
  | .approveIncident .. => true

theorem fitsUnmetered_of_check {cfg : RouterConfig} {ctx : GraphContext} (s : MeteredIncident)
    (a : MeteredStep) (h : checkFits cfg s a = true) : FitsUnmetered cfg ctx s a := by
  rintro env router confidence category rfl hnone - -
  simpa [checkFits, hnone] using h

/-- A metered incident before its first node. -/
def newMetered : MeteredIncident := { thread := newIncident, llmCallCount := 0, made := 0 }

theorem newMetered_new : NewMetered newMetered := ⟨newIncident_prepared, rfl, rfl⟩

/-- The second proposal is the third call, which the budget of three allows. -/
theorem calls_within_budget_second :
    ∃ n es s, (metered (sampleRouterConfig 3) flushContext).Run
      (FitsUnmetered (sampleRouterConfig 3) flushContext) n es s ∧
        s.thread.metrics.isNone = true ∧ s.made = 3 ∧
        physicalCalls es ≤ (sampleRouterConfig 3).maxLlmCallsPerIncident := by
  have hexec : (((metered (sampleRouterConfig 3) flushContext).restrict
      (checkFits (sampleRouterConfig 3))).exec newMetered secondProposal).any
      (fun r => r.1.thread.metrics.isNone && decide (r.1.made = 3)) = true := by
    decide +kernel
  obtain ⟨s, es, hr, hc⟩ := Sys.exists_checked_run fitsUnmetered_of_check newMetered_new hexec
  simp only [Bool.and_eq_true, decide_eq_true_eq] at hc
  exact ⟨_, es, s, hr, hc.1, hc.2, calls_within_budget hr⟩

/-- With a budget of two calls, the second proposal makes the third call. -/
theorem budget_exceeded :
    ¬ ∀ (cfg : RouterConfig) (ctx : GraphContext) (n : Nat) (es : List CallEvent)
      (s : MeteredIncident), (metered cfg ctx).Run Sys.anyStep n es s →
      physicalCalls es ≤ cfg.maxLlmCallsPerIncident := by
  intro hall
  have hexec : ((metered (sampleRouterConfig 2) flushContext).exec newMetered secondProposal).any
      (fun r => decide (physicalCalls r.2 = 3)) = true := by
    decide +kernel
  obtain ⟨s, es, hr, hc⟩ := Sys.exists_any_run newMetered_new hexec
  have hle := hall _ _ _ es s hr
  rw [of_decide_eq_true hc] at hle
  exact absurd hle (by decide)

end Api
end AutoSRE
