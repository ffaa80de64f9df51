import AutoSRE.Core.Ending

/-!
# Termination

- **Counts** (`calls_le_of`, `selfLoops_le`). The attempts bound the calls of the executor, and the
  time of the request for an approval bounds the self-loops of `approve_node`.
- **The end** (`Terminates`, `guarded_terminates`). The rank bounds the executions of nodes. A run
  whose paused threads are resumed ends through `complete_node`, unless an exception escapes
  (`escape_never_ends`).
-/

namespace AutoSRE
namespace Core

open Lib Py Safety Tools

variable {ctx : GraphContext} {C : Thread → Label → Prop} {n : Nat} {es fs : List Event}
  {t t' : Thread} {a : Label}

/-! ## The first node -/

/-- What `triage_node` resets. -/
theorem triage_step (h : (graph ctx).step t a = some (t', fs)) (hn : t.next = .node .triage) :
    t'.values.actionAttempts = 0 ∧ t'.values.iterationCount = 0 ∧
      t'.values.iterationBudget = ctx.initialIterationBudget := by
  obtain ⟨env, run, -, hx, hstep⟩ := step_exit h hn
  obtain ⟨rfl, -⟩ := Prod.mk.inj hstep
  cases hx <;> exact ⟨rfl, rfl, rfl⟩

/-- No node goes back to `triage_node`. -/
theorem next_ne_triage (h : (graph ctx).step t a = some (t', fs)) : t'.next ≠ .node .triage := by
  intro hn
  obtain ⟨p, -, hedge⟩ := step_edge h
  have hmem := hedge _ hn
  cases p <;> simp [successors] at hmem

/-! ## Calls of the executor -/

/-- The calls of the executor are counted by the attempts, which are reset by `triage_node`, and
there are at most `m`. -/
structure Counted (m : Int) (es : List Event) (t : Thread) : Prop where
  start : t.next = .node .triage → es.countP Event.isCall = 0
  attempts : t.next ≠ .node .triage → (es.countP Event.isCall : Int) = t.values.actionAttempts
  le : es.countP Event.isCall ≤ m.toNat

/-- A step calls the executor at most once. -/
theorem countP_call (action : ProposedAction) (log : List ExecEvent) :
    (.node .execute :: .executorCall action :: log.map .executor : List Event).countP
      Event.isCall = 1 := by
  have hlog : (log.map Event.executor).countP Event.isCall = 0 := by
    simp [List.countP_eq_zero, Event.isCall]
  rw [List.countP_cons_of_neg (by nofun), List.countP_cons_of_pos rfl, hlog]

/-- A step that calls the executor only with less than `m` attempts used. -/
theorem counted_step {m : Int} (hc : Counted m es t) (h : (graph ctx).step t a = some (t', fs))
    (hm : t.next = .node .execute → t.values.actionAttempts < ctx.maxActionAttempts →
      t.values.actionAttempts < m) : Counted m (es ++ fs) t' := by
  have hcall : fs.countP Event.isCall = 1 → t.next = .node .execute →
      t.values.actionAttempts < ctx.maxActionAttempts →
      t'.values.actionAttempts = t.values.actionAttempts + 1 → Counted m (es ++ fs) t' := by
    intro hone hn hlt hatt
    have hes := hc.attempts (by simp [hn])
    have hltm := hm hn hlt
    refine ⟨fun ht => absurd ht (next_ne_triage h), fun _ => ?_, ?_⟩ <;>
      rw [List.countP_append, hone] <;> omega
  cases step_record h with
  | kept hno _ hatt =>
    have hzero : fs.countP Event.isCall = 0 := by
      refine List.countP_eq_zero.mpr fun e hm he => ?_
      obtain ⟨action, hcall⟩ := exists_call (List.any_eq_true.mpr ⟨e, hm, he⟩)
      exact hno action hcall
    refine ⟨fun ht => absurd ht (next_ne_triage h), fun _ => ?_, ?_⟩
    · rw [List.countP_append, hzero, Nat.add_zero]
      by_cases hn : t.next = .node .triage
      · rw [hc.start hn, (triage_step h hn).1]
        rfl
      · rw [hc.attempts hn, hatt hn]
    · rw [List.countP_append, hzero]
      exact hc.le
  | returned env p ps action r _ hn _ hlt _ _ _ hatt =>
    exact hcall (countP_call _ _) hn hlt hatt
  | raised env p ps action e _ hn _ hlt _ _ _ hatt =>
    exact hcall (countP_call _ _) hn hlt hatt

theorem initial_next {t : Thread} (h : t.Initial) : t.next = .node .triage := by
  obtain ⟨metadata, budget, now, hv, hn⟩ := h
  rw [hn, hv]
  rfl

/-- The executor is called at most `m` times, when no call begins with `m` attempts used. -/
theorem calls_le_of {m : Int} (hm : ∀ t a, C t a → t.next = .node .execute →
    t.values.actionAttempts < ctx.maxActionAttempts → t.values.actionAttempts < m)
    (hr : (graph ctx).Run C n es t) : es.countP Event.isCall ≤ m.toNat := by
  have hc : Counted m es t := by
    refine hr.inv (I := Counted m) (fun s hi => ?_) fun _ _ s a _ _ _ hi hc hs =>
      counted_step hi hs (hm s a hc)
    exact ⟨fun _ => rfl, fun hn => absurd (initial_next hi) hn, Nat.zero_le _⟩
  exact hc.le

/-- The executor is called at most as often as there are attempts. -/
theorem calls_le (hr : (graph ctx).Run C n es t) :
    es.countP Event.isCall ≤ ctx.maxActionAttempts.toNat :=
  calls_le_of (fun _ _ _ _ hlt => hlt) hr

/-! ## Self-loops of `approve_node` -/

/-- The node that the last event executes. -/
def lastNode : Option Phase → List Event → Option Phase
  | prev, [] => prev
  | _, e :: es => lastNode e.execution? es

/-- The executions of `approve_node` right after its execution, when `prev` is executed before. -/
def loopsAfter : Option Phase → List Event → Nat
  | _, [] => 0
  | prev, e :: es =>
    (if prev = some .approve ∧ e.execution? = some .approve then 1 else 0) +
      loopsAfter e.execution? es

/-- The self-loops of `approve_node`. -/
def selfLoops (es : List Event) : Nat := loopsAfter none es

theorem lastNode_append (prev : Option Phase) (es fs : List Event) :
    lastNode prev (es ++ fs) = lastNode (lastNode prev es) fs := by
  induction es generalizing prev with
  | nil => rfl
  | cons e es ih => exact ih e.execution?

theorem loopsAfter_append (prev : Option Phase) (es fs : List Event) :
    loopsAfter prev (es ++ fs) = loopsAfter prev es + loopsAfter (lastNode prev es) fs := by
  induction es generalizing prev with
  | nil => simp [loopsAfter, lastNode]
  | cons e es ih => simp only [List.cons_append, loopsAfter, lastNode, ih, Nat.add_assoc]

/-- Events that execute no node are no self-loops. -/
theorem loopsAfter_zero {prev : Option Phase} (h : ∀ e ∈ fs, e.execution? = none) :
    loopsAfter prev fs = 0 := by
  induction fs generalizing prev with
  | nil => rfl
  | cons e fs ih =>
    have he := h e List.mem_cons_self
    simp [loopsAfter, he, ih fun e' hm => h e' (List.mem_cons_of_mem e hm)]

/-- After the events of one node, the last one executes no other node. -/
theorem lastNode_rest {prev : Option Phase} (h : ∀ e ∈ fs, e.execution? = none) :
    lastNode prev fs = prev ∨ lastNode prev fs = none := by
  induction fs generalizing prev with
  | nil => exact .inl rfl
  | cons e fs ih =>
    have he := h e List.mem_cons_self
    rw [lastNode, he]
    exact .inr ((ih fun e' hm => h e' (List.mem_cons_of_mem e hm)).elim id id)

/-- What an execution of `approve_node` does to the time of the request. -/
theorem approve_step (h : (graph ctx).step t a = some (t', fs)) (hp : Enters t .approve) :
    (t.values.approvalRequestedAt = none ∧ t'.values.approvalRequestedAt ≠ none) ∨
      (t'.values.approvalRequestedAt = t.values.approvalRequestedAt ∧
        (t'.next.place = .approving → lastNode none fs ≠ some .approve)) := by
  obtain ⟨p, env, resume, metrics, hstep, hnext⟩ := step_cases h
  have hpa : p = .approve := by
    rcases hnext with ⟨hn, -, -⟩ | ⟨-, hpa, -⟩
    · rcases hp with hp | ⟨hp, -⟩ <;> rw [hn] at hp <;> cases hp
      rfl
    · exact hpa
  subst hpa
  have hx := approveNode_exit env t.values resume
  change (t', fs) = afterNode _ _ _ (approveNode env resume t.values) at hstep
  generalize approveNode env resume t.values = run at hstep hx
  obtain ⟨rfl, rfl⟩ := Prod.mk.inj hstep
  cases hx with
  | request _ _ ht => exact .inl ⟨ht, nofun⟩
  | interrupted _ _ _ _ _ _ _ _ => exact .inr ⟨rfl, nofun⟩
  | _ => exact .inr ⟨rfl, nofun⟩

/-- A self-loop comes with the request for an approval, which is made once. -/
structure Looped (es : List Event) (t : Thread) : Prop where
  le : selfLoops es ≤ 1
  unasked : t.values.approvalRequestedAt = none → selfLoops es = 0
  again : t.next.place = .approving → lastNode none es = some .approve →
    selfLoops es = 0 ∧ t.values.approvalRequestedAt ≠ none

theorem looped_step (hl : Looped es t) (h : (graph ctx).step t a = some (t', fs)) :
    Looped (es ++ fs) t' := by
  obtain ⟨p, rest, hp, hfs, hrest, hframe⟩ := step_frame h
  have hnone : ∀ e ∈ rest, e.execution? = none := fun e hm => (hrest e hm).2
  have hloops : selfLoops (es ++ fs) =
      selfLoops es + if lastNode none es = some .approve ∧ p = .approve then 1 else 0 := by
    simp [selfLoops, loopsAfter_append, hfs, loopsAfter, loopsAfter_zero hnone, Event.execution?]
  have hlast : lastNode none (es ++ fs) = lastNode none fs := by
    rw [lastNode_append, hfs]
    rfl
  by_cases hpa : p = .approve
  · subst hpa
    have hplace : t.next.place = .approving := by
      rcases hp with hn | ⟨hn, -⟩ <;> rw [hn] <;> rfl
    by_cases hprev : lastNode none es = some .approve
    · -- The self-loop: the request was made by the execution before it.
      obtain ⟨hzero, hasked⟩ := hl.again hplace hprev
      have hone : selfLoops (es ++ fs) = 1 := by simp [hloops, hzero, hprev]
      rcases approve_step h hp with ⟨ht, -⟩ | ⟨ht, hq⟩
      · exact absurd ht hasked
      · exact ⟨by omega, fun hn => absurd (ht ▸ hn) hasked,
          fun hpl hla => absurd (hlast ▸ hla) (hq hpl)⟩
    · have hsame : selfLoops (es ++ fs) = selfLoops es := by simp [hloops, hprev]
      rcases approve_step h hp with ⟨ht, ht'⟩ | ⟨ht, hq⟩
      · have hzero := hl.unasked ht
        exact ⟨by omega, fun hn => absurd hn ht', fun _ _ => ⟨by omega, ht'⟩⟩
      · exact ⟨hsame ▸ hl.le, fun hn => hsame ▸ hl.unasked (ht ▸ hn),
          fun hpl hla => absurd (hlast ▸ hla) (hq hpl)⟩
  · have hsame : selfLoops (es ++ fs) = selfLoops es := by simp [hloops, hpa]
    have ht := hframe.requestedAt hpa
    refine ⟨hsame ▸ hl.le, fun hn => hsame ▸ hl.unasked (ht ▸ hn), fun _ hla => ?_⟩
    rw [hlast, hfs] at hla
    have hrest : lastNode (some p) rest = some p ∨ lastNode (some p) rest = none :=
      lastNode_rest hnone
    rcases hrest with hr | hr
    · exact absurd (Option.some.inj (hr.symm.trans hla)) hpa
    · cases hr.symm.trans hla

/-- `approve_node` follows itself at most once in a run. -/
theorem selfLoops_le (hr : (graph ctx).Run C n es t) : selfLoops es ≤ 1 := by
  have hl : Looped es t := by
    refine hr.inv (I := Looped) (fun s hi => ?_) fun _ _ _ _ _ _ _ hl _ hs => looped_step hl hs
    exact ⟨Nat.zero_le _, fun _ => rfl, fun _ hla => by cases hla⟩
  exact hl.le

/-! ## The end -/

/-- The kind of step that a thread takes: a paused one is resumed, any other executes a node. -/
def Label.Fits (t : Thread) : Label → Prop
  | .run _ => t.next ≠ .paused
  | .resume .. => t.next = .paused

/-- The environment makes steps of the right kind that meet the condition. -/
def Drives (ctx : GraphContext) (C : Thread → Label → Prop) (next : List Event → Thread → Label)
    (es : List Event) (t : Thread) : Prop :=
  ∀ k es' t', (graph ctx).drive next k (es, t) = (es', t') →
    (next es' t').Fits t' ∧ C t' (next es' t')

/-- The executions of nodes are bounded and lead to the end. -/
structure Terminates (ctx : GraphContext) (C : Thread → Label → Prop) (n : Nat) (es : List Event)
    (t : Thread) : Prop where
  bounded : n ≤ stepBound ctx
  calls : es.countP Event.isCall ≤ ctx.maxActionAttempts.toNat
  selfLoops : selfLoops es ≤ 1
  /-- Whatever the environment chooses from here on, the run ends through `complete_node`. -/
  reaches : ∀ next, Drives ctx C next es t → ∀ es' t',
    (graph ctx).drive next (stepBound ctx) (es, t) = (es', t') →
      t'.next = .done ∧ .node .complete ∈ es'

/-- A sound thread that is not done takes a step of its kind. -/
theorem step_of_fits (hs : Sound ctx t) (hd : t.next ≠ .done) (ha : a.Fits t) :
    (graph ctx).step t a ≠ none := by
  have hnext := hs.next
  cases a with
  | run env =>
    cases hn : t.next with
    | node p => simp [graph, stepThread, hn]
    | paused => exact absurd hn ha
    | done => exact absurd hn hd
    | crashed exc =>
      rw [hn] at hnext
      exact hnext.elim
  | resume decision env metrics =>
    change t.next = .paused at ha
    simp [graph, stepThread, ha]

/-- A guarded run terminates. -/
theorem guarded_terminates (hr : (graph ctx).Run (Guarded ctx) n es t) :
    Terminates ctx (Guarded ctx) n es t := by
  have hlen := run_length_le hr
  refine ⟨by omega, calls_le hr, selfLoops_le hr, fun next hnext es' t' hend => ?_⟩
  have hC := fun k es' t' hk => (hnext k es' t' hk).2
  have hdone : t'.next = .done :=
    hr.drive_final (F := fun t => t.next = .done) (rank ctx)
      (fun n es t hr => run_length_le hr)
      (fun n es s a s' fs hr hs => rank_pos (guarded_sound hr) hs) hC hend
      fun m hr hd => step_of_fits (guarded_sound hr) hd (hnext _ es' t' hend).1
  obtain ⟨m, hm, -⟩ := hr.drive hC (stepBound ctx) hend
  exact ⟨hdone, complete_of_done hm hdone⟩

/-- An incident with an approved proposal. -/
theorem guarded_terminates_flushAll :
    ∃ n es t, (graph flushContext).Run (Guarded flushContext) n es t ∧
      (∃ action, .executorCall action ∈ es) ∧
      Terminates flushContext (Guarded flushContext) n es t := by
  have hexec : (((graph flushContext).restrict checkTier).exec sampleThread flushLabels).any
      (fun r => r.2.any Event.isCall) = true := by
    decide +kernel
  obtain ⟨t, es, hr, hc⟩ := Sys.exists_checked_run flushContext_guarded sampleThread_initial hexec
  exact ⟨_, es, t, hr, exists_call hc, guarded_terminates hr⟩

/-- An exception escaped. -/
def crashed (t : Thread) : Bool :=
  match t.next with
  | .crashed _ => true
  | _ => false

theorem of_crashed (h : crashed t = true) : Crashed t := by
  unfold crashed at h
  split at h
  · rename_i exc hn
    exact ⟨exc, hn⟩
  · cases h

/-- A run from which an exception escapes never reaches its end. -/
theorem escape_never_ends :
    ¬ ∀ (ctx : GraphContext) (n : Nat) (es : List Event) (t : Thread),
      0 < ctx.initialIterationBudget → 0 < ctx.maxActionAttempts →
      (graph ctx).Run Sys.anyStep n es t → Terminates ctx Sys.anyStep n es t := by
  intro hall
  have hexec : ((graph flushContext).exec sampleThread
      (List.replicate 5 (.run (sampleEnv (sampleAnswer "flush_all" (-1)))))).any
      (fun r => crashed r.1) = true := by
    decide +kernel
  obtain ⟨t, es, hr, hc⟩ := Sys.exists_any_run sampleThread_initial hexec
  obtain ⟨exc, hn⟩ : Crashed t := of_crashed hc
  have hstuck : Sys.Stuck (graph flushContext) (fun _ _ => .run (sampleEnv .null)) (es, t) := by
    simp [Sys.Stuck, graph, stepThread, hn]
  have hstay := Sys.drive_stuck hstuck
  have hdrives : Drives flushContext Sys.anyStep (fun _ _ => .run (sampleEnv .null)) es t := by
    intro k es' t' hk
    obtain ⟨rfl, rfl⟩ := Prod.mk.inj ((hstay k).symm.trans hk)
    refine ⟨?_, trivial⟩
    show t.next ≠ .paused
    simp [hn]
  obtain ⟨hd, -⟩ := (hall _ _ es t (by decide) (by decide) hr).reaches _ hdrives es t (hstay _)
  rw [hn] at hd
  cases hd

end Core
end AutoSRE
