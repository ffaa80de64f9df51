import AutoSRE.Core.Approval

/-!
# What each node leaves alone

- **Frames** (`Frame`, `step_frame`). Each field that a node can change is changed by one or two
  nodes only; the metadata and the start time are never changed.
- **The record of executed actions** (`RecordStep`, `step_record`). Only `execute_node` calls the
  executor: a call that returns is recorded, a call that raises is not, and both use an attempt.
- **Proposals** (`proposed_step`, `pending_step`). What a step has checked that emits a proposal;
  its tool and its arguments do not change until it is executed.
-/

namespace AutoSRE
namespace Core

open Lib Py Safety Tools

/-! ## Frames -/

/-- What the node `p` does not change. -/
structure Frame (p : Phase) (s s' : AgentState) : Prop where
  metadata : s'.incidentMetadata = s.incidentMetadata
  startedAt : s'.startedAt = s.startedAt
  executed : p ≠ .execute → s'.executedActions = s.executedActions
  attempts : p ≠ .execute → p ≠ .triage → s'.actionAttempts = s.actionAttempts
  count : p ≠ .triage → p ≠ .investigate → s'.iterationCount = s.iterationCount
  budget : p ≠ .triage → p ≠ .investigate → s'.iterationBudget = s.iterationBudget
  required : p ≠ .propose → s'.requiresHumanApproval = s.requiresHumanApproval
  granted : p ≠ .approve → s'.approvalGranted = s.approvalGranted
  requestedAt : p ≠ .approve → s'.approvalRequestedAt = s.approvalRequestedAt

theorem Frame.refl (p : Phase) (s : AgentState) : Frame p s s :=
  ⟨rfl, rfl, fun _ => rfl, fun _ _ => rfl, fun _ _ => rfl, fun _ _ => rfl, fun _ => rfl,
    fun _ => rfl, fun _ => rfl⟩

section frames

variable (ctx : GraphContext) (env : NodeEnv) (resume : Option Json) (metrics : Option RunMetrics)

/-- A node that returns keeps its frame. -/
theorem runNode_frame {p : Phase} {s s' : AgentState}
    (h : (runNode ctx env resume metrics p s).out = .ok s') : Frame p s s' := by
  have hx := runNode_exit ctx env s resume metrics p
  generalize runNode ctx env resume metrics p s = run at hx h
  cases p with
  | triage => cases hx <;> cases h <;> constructor <;> simp [triageUpdate]
  | investigate => cases hx <;> cases h <;> constructor <;> simp [investigated]
  | hypothesize => cases hx <;> cases h <;> constructor <;> simp
  | propose => cases hx <;> cases h <;> constructor <;> simp
  | approve => cases hx <;> cases h <;> constructor <;> simp
  | execute => cases hx <;> cases h <;> constructor <;> simp
  | verify => cases hx <;> cases h <;> constructor <;> simp
  | complete =>
    obtain ⟨_, _, _, _, _, he⟩ := completeNode_eq env s metrics
    rw [show run = _ from hx, he] at h
    cases h
    constructor <;> simp

end frames

variable {ctx : GraphContext} {t t' : Thread} {a : Label} {fs : List Event}

/-- A step executes a node, keeps the node's frame, and logs only the node's events. -/
theorem step_frame (h : (graph ctx).step t a = some (t', fs)) :
    ∃ p rest, Enters t p ∧ fs = .node p :: rest ∧
      (∀ e ∈ rest, e.source p ∧ e.execution? = none) ∧ Frame p t.values t'.values := by
  obtain ⟨p, env, resume, metrics, hstep, hnext⟩ := step_cases h
  obtain ⟨rfl, rfl⟩ := Prod.mk.inj hstep
  refine ⟨p, _, hnext.imp And.left fun hn => ⟨hn.1, hn.2.1⟩, rfl,
    fun e he => ?_, ?_⟩
  · have hl := runNode_log env resume metrics p t.values e he
    exact ⟨hl.source, hl.execution⟩
  · cases ho : (runNode ctx env resume metrics p t.values).out with
    | ok s' => exact runNode_frame ctx env resume metrics ho
    | error e => cases e <;> exact Frame.refl p t.values

/-- The metadata of an incident never changes. -/
theorem run_metadata {C : Thread → Label → Prop} {n : Nat} {es : List Event}
    (hr : (graph ctx).Run C n es t) :
    ∃ m : IncidentMetadata, t.values.incidentMetadata = m.modelDump := by
  refine hr.stateInv (I := fun t => ∃ m : IncidentMetadata, t.values.incidentMetadata = m.modelDump)
    (fun s hi => ?_) fun s a s' fs hm _ hs => ?_
  · obtain ⟨m, _, _, hv, -⟩ := hi
    exact ⟨m, by rw [hv]; rfl⟩
  · obtain ⟨p, rest, -, -, -, hf⟩ := step_frame hs
    exact hf.metadata ▸ hm

/-! ## The record of executed actions -/

/-- What a step does to the record of executed actions. -/
inductive RecordStep (ctx : GraphContext) (t : Thread) (a : Label) : List Event → Thread → Prop
  /-- The executor is not called. -/
  | kept {fs : List Event} {t' : Thread} : (∀ action, .executorCall action ∉ fs) →
      t'.values.executedActions = t.values.executedActions →
      (t.next ≠ .node .triage → t'.values.actionAttempts = t.values.actionAttempts) →
      RecordStep ctx t a fs t'
  /-- A call returns, and is recorded. -/
  | returned {t' : Thread} (env : NodeEnv) (p : Proposal) (ps : List Proposal)
      (action : ProposedAction) (r : ExecutionResult) : a = .run env → t.next = .node .execute →
      t.values.proposedActions = p :: ps → t.values.actionAttempts < ctx.maxActionAttempts →
      actionOf t.values p = .ok action →
      (ctx.executor.execute env.handlers none action).out = .ok r →
      t'.values.executedActions = t.values.executedActions ++ [executedAction env p r] →
      t'.values.actionAttempts = t.values.actionAttempts + 1 →
      RecordStep ctx t a (.node .execute :: .executorCall action ::
        (ctx.executor.execute env.handlers none action).log.map .executor) t'
  /-- A call raises. -/
  | raised {t' : Thread} (env : NodeEnv) (p : Proposal) (ps : List Proposal)
      (action : ProposedAction) (e : ExecError) : a = .run env → t.next = .node .execute →
      t.values.proposedActions = p :: ps → t.values.actionAttempts < ctx.maxActionAttempts →
      actionOf t.values p = .ok action →
      (ctx.executor.execute env.handlers none action).out = .error e →
      t'.values.executedActions = t.values.executedActions →
      t'.values.actionAttempts = t.values.actionAttempts + 1 →
      RecordStep ctx t a (.node .execute :: .executorCall action ::
        (ctx.executor.execute env.handlers none action).log.map .executor) t'

theorem step_record (h : (graph ctx).step t a = some (t', fs)) : RecordStep ctx t a fs t' := by
  obtain ⟨q, rest, hq, hfs, hsrc, hf⟩ := step_frame h
  by_cases hqe : q = .execute
  · subst hqe
    have hn : t.next = .node .execute := hq.resolve_right nofun
    obtain ⟨env, run, ha, hx, hstep⟩ := step_exit h hn
    obtain ⟨rfl, rfl⟩ := Prod.mk.inj hstep
    cases hx with
    | refused _ => exact .kept (by simp) rfl fun _ => rfl
    | invalid p ps exc _ _ _ => exact .kept (by simp) rfl fun _ => rfl
    | returned p ps action r hp hlt _ hact ho =>
      exact .returned env p ps action r ha hn hp hlt hact ho rfl rfl
    | raised p ps action e hp hlt _ hact ho =>
      exact .raised env p ps action e ha hn hp hlt hact ho rfl rfl
  · refine .kept (fun action hm => ?_) (hf.executed hqe) fun hn => hf.attempts hqe ?_
    · rw [hfs] at hm
      exact hqe (hsrc _ ((List.mem_cons.mp hm).resolve_left nofun)).1
    · rintro rfl
      exact hn (hq.resolve_right nofun)

/-! ## Proposals -/

/-- What a step has checked that emits a proposal. -/
theorem proposed_step (h : (graph ctx).step t a = some (t', fs)) {p : Proposal}
    (hm : .proposed p ∈ fs) :
    ∃ env confidence category sel name, a = .run env ∧ t.next = .node .propose ∧
      topConfidence t.values.hypotheses = .ok confidence ∧
      proposeCategory t.values.incidentMetadata = .ok category ∧
      Selected ctx env t.values confidence category sel ∧ sel.toolName = some name ∧
      p = sel.proposal name t.values.incidentMetadata ∧
      isActionAlreadyExecuted name sel.toolArgs t.values.executedActions = false := by
  have hn : t.next = .node .propose := next_of_source h hm (fun _ h => h) (by decide)
  obtain ⟨env, run, ha, hx, hstep⟩ := step_exit h hn
  obtain ⟨-, rfl⟩ := Prod.mk.inj hstep
  cases hx with
  | proposed confidence category sel name p' _ _ hc hcat hsel hname hp hdup _ =>
    obtain rfl : p = p' := by simpa [llmEvent] using hm
    exact ⟨env, confidence, category, sel, name, ha, hn, hc, hcat, hsel, hname, hp, hdup⟩
  | nothing log _ _ hlog _ => rcases hlog with rfl | rfl <;> simp [llmEvent] at hm
  | _ => simp at hm

/-- A proposal that is approved or executed next was emitted by the step, or was approved before it
and has kept its tool and its arguments. -/
theorem pending_step (h : (graph ctx).step t a = some (t', fs))
    (hp : t'.next.place = .approving ∨ t'.next.place = .executing) :
    (∃ p, .proposed p ∈ fs ∧ t'.values.proposedActions = [p]) ∨
      (t.next.place = .approving ∧ ∀ p ∈ t'.values.proposedActions,
        ∃ p' ∈ t.values.proposedActions, p'.toolName = p.toolName ∧ p'.toolArgs = p.toolArgs) := by
  have hsame : t'.values.proposedActions = t.values.proposedActions →
      ∀ p ∈ t'.values.proposedActions, ∃ p' ∈ t.values.proposedActions,
        p'.toolName = p.toolName ∧ p'.toolArgs = p.toolArgs :=
    fun he p hm => ⟨p, he ▸ hm, rfl, rfl⟩
  cases step_gate h with
  | ended hp' _ _ => rcases hp with hp | hp <;> rw [hp'] at hp <;> cases hp
  | searched _ hp' _ _ => rcases hp with hp | hp <;> rw [hp'] at hp <;> cases hp
  | proposed env confidence category sel name p _ _ _ _ _ _ _ _ hprop _ _ _ _ =>
    exact .inl ⟨p, by simp, hprop⟩
  | requested hn _ hs _ _ => exact .inr ⟨hn, hsame hs.proposed⟩
  | interrupted p ps hn _ hv _ => exact .inr ⟨hn, hsame (by rw [hv])⟩
  | passed hn _ hs _ _ =>
    refine .inr ⟨?_, hsame hs.proposed⟩
    rcases hn with hn | ⟨hn, -⟩ <;> rw [hn] <;> rfl
  | approved decision wait hn _ hmap _ _ _ =>
    refine .inr ⟨by rw [hn]; rfl, fun p hm => ?_⟩
    rw [hmap] at hm
    obtain ⟨p', hm', rfl⟩ := List.mem_map.mp hm
    exact ⟨p', hm', rfl, rfl⟩
  | refused _ _ _ hn => rcases hp with hp | hp <;> rw [hn] at hp <;> cases hp
  | called _ _ _ _ _ _ _ _ _ _ hn => rcases hp with hp | hp <;> rw [hn] at hp <;> cases hp

end Core
end AutoSRE
