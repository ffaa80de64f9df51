import AutoSRE.Core.Exits

/-!
# The steps of a run

- **A step** (`step_run`, `step_resume`). A step executes a node: the next one, or `approve_node`
  again when the run is resumed.
- **Edges** (`successors`, `step_edge`). Where a step can lead.
- **Events** (`Event.source`, `step_source`). A node logs only its own kinds of events; what
  `execute_node` dispatches is the pending proposal (`dispatch_step`).
-/

namespace AutoSRE
namespace Core

open Lib Py Safety Tools

variable {ctx : GraphContext}

/-- The thread executes the node `p` in its next step. -/
def Enters (t : Thread) (p : Phase) : Prop :=
  t.next = .node p ∨ (t.next = .paused ∧ p = .approve)

theorem Enters.eq {t : Thread} {p q : Phase} (hp : Enters t p) (hq : Enters t q) : p = q := by
  rcases hp with hp | ⟨hp, rfl⟩
  · rcases hq with hq | ⟨hq, -⟩
    · exact Next.node.inj (hp.symm.trans hq)
    · cases hp.symm.trans hq
  · rcases hq with hq | ⟨-, rfl⟩
    · cases hp.symm.trans hq
    · rfl

/-- A step that is no resumption executes the next node. -/
theorem step_run {t t' : Thread} {env : NodeEnv} {fs : List Event}
    (h : (graph ctx).step t (.run env) = some (t', fs)) :
    ∃ p, t.next = .node p ∧
      (t', fs) = afterNode p t.values t.metrics (runNode ctx env none t.metrics p t.values) := by
  simp only [graph, stepThread] at h
  split at h
  · rename_i p hp
    simp only [Option.some.injEq] at h
    exact ⟨p, hp, h.symm⟩
  · cases h

/-- A resumption executes `approve_node`. -/
theorem step_resume {t t' : Thread} {decision : Json} {env : NodeEnv}
    {metrics : Option RunMetrics} {fs : List Event}
    (h : (graph ctx).step t (.resume decision env metrics) = some (t', fs)) :
    t.next = .paused ∧ (t', fs) = afterNode .approve t.values metrics
      (runNode ctx env (some decision) metrics .approve t.values) := by
  simp only [graph, stepThread] at h
  split at h
  · rename_i hp
    simp only [Option.some.injEq] at h
    exact ⟨hp, h.symm⟩
  · cases h

/-- A step executes a node. -/
theorem step_cases {t t' : Thread} {a : Label} {fs : List Event}
    (h : (graph ctx).step t a = some (t', fs)) :
    ∃ p env resume metrics, (t', fs) =
        afterNode p t.values metrics (runNode ctx env resume metrics p t.values) ∧
      ((t.next = .node p ∧ resume = none ∧ a = .run env) ∨
        (t.next = .paused ∧ p = .approve ∧ ∃ decision, resume = some decision)) := by
  cases a with
  | run env =>
    obtain ⟨p, hp, hstep⟩ := step_run h
    exact ⟨p, env, none, t.metrics, hstep, .inl ⟨hp, rfl, rfl⟩⟩
  | resume decision env metrics =>
    obtain ⟨hp, hstep⟩ := step_resume h
    exact ⟨.approve, env, some decision, metrics, hstep, .inr ⟨hp, rfl, decision, rfl⟩⟩

/-- A step of a thread whose next node is `p` executes it. -/
theorem step_node {t t' : Thread} {a : Label} {fs : List Event} {p : Phase}
    (h : (graph ctx).step t a = some (t', fs)) (hn : t.next = .node p) :
    ∃ env, a = .run env ∧
      (t', fs) = afterNode p t.values t.metrics (runNode ctx env none t.metrics p t.values) := by
  cases a with
  | run env =>
    obtain ⟨q, hq, hstep⟩ := step_run h
    obtain rfl := Next.node.inj (hq.symm.trans hn)
    exact ⟨env, rfl, hstep⟩
  | resume decision env metrics =>
    obtain ⟨hp, -⟩ := step_resume h
    rw [hn] at hp
    cases hp

/-- A step of a thread whose next node is `p` goes one of the node's ways. -/
theorem step_exit {t t' : Thread} {a : Label} {fs : List Event} {p : Phase}
    (h : (graph ctx).step t a = some (t', fs)) (hn : t.next = .node p) :
    ∃ env run, a = .run env ∧ NodeExit ctx env t.values none t.metrics p run ∧
      (t', fs) = afterNode p t.values t.metrics run := by
  obtain ⟨env, ha, hstep⟩ := step_node h hn
  exact ⟨env, _, ha, runNode_exit ctx env t.values none t.metrics p, hstep⟩

/-! ## Edges -/

/-- The router of `hypothesize_node` goes on only with iterations left. -/
theorem routeAfterHypothesize_cases (s : AgentState) :
    routeAfterHypothesize s = .propose ∨ (routeAfterHypothesize s = .investigate ∧
      (s.iterationBudget ≤ 0 ∧ s.iterationCount < 3 ∨ s.iterationCount < s.iterationBudget)) := by
  unfold routeAfterHypothesize
  simp only
  by_cases hb : s.iterationBudget = 0 <;> simp only [hb, if_true, if_false] <;> grind

/-- The ends of the edges of a node. -/
def successors : Phase → List Phase
  | .triage => [.investigate, .complete]
  | .investigate => [.hypothesize]
  | .hypothesize => [.propose, .investigate]
  | .propose | .approve => [.approve, .execute, .complete]
  | .execute => [.verify]
  | .verify => [.propose, .complete]
  | .complete => []

theorem mem_successors {p q : Phase} {s : AgentState} (h : routeAfter p s = .node q) :
    q ∈ successors p := by
  cases p with
  | triage =>
    simp only [routeAfter, routeAfterTriage] at h
    split at h <;> cases h <;> simp [successors]
  | hypothesize =>
    simp only [routeAfter] at h
    rcases routeAfterHypothesize_cases s with hr | ⟨hr, -⟩ <;> rw [hr] at h <;> cases h <;>
      simp [successors]
  | propose | approve =>
    simp only [routeAfter, routeAfterApproval] at h
    split at h <;> cases h <;> simp [successors]
  | verify =>
    simp only [routeAfter, routeAfterVerify] at h
    split at h <;> cases h <;> simp [successors]
  | investigate | execute =>
    cases h
    simp [successors]
  | complete => cases h

/-- A step leads to the end of an edge, if it leads to a node. -/
theorem step_edge {t t' : Thread} {a : Label} {fs : List Event}
    (h : (graph ctx).step t a = some (t', fs)) :
    ∃ p, Enters t p ∧ ∀ q, t'.next = .node q → q ∈ successors p := by
  obtain ⟨p, env, resume, metrics, hstep, hnext⟩ := step_cases h
  refine ⟨p, hnext.imp And.left fun hn => ⟨hn.1, hn.2.1⟩, fun q hq => ?_⟩
  obtain ⟨rfl, -⟩ := Prod.mk.inj hstep
  simp only [settle] at hq
  split at hq
  · exact mem_successors hq
  · cases hq
  · cases hq

/-! ## Which node logs which event -/

/-- The node that logs an event. -/
def Event.source : Event → Phase → Prop
  | .node p, q => p = q
  | .llmCall .., p => p = .triage ∨ p = .investigate ∨ p = .hypothesize ∨ p = .propose
  | .toolCall .., p => p = .investigate
  | .proposed _, p => p = .propose
  | .interrupt _, p | .resumed _, p | .approvalWait _, p => p = .approve
  | .executorCall _, p | .executor _, p => p = .execute

/-- The node that the event executes. -/
def Event.execution? : Event → Option Phase
  | .node p => some p
  | _ => none

/-- The times that the router waited in a call of the language model. -/
def Event.backoffs : Event → List PyFloat
  | .llmCall backoffs _ => backoffs
  | _ => []

/-- What the node `p` can log in `env`. -/
structure Event.LoggedBy (env : NodeEnv) (p : Phase) (e : Event) : Prop where
  source : e.source p
  execution : e.execution? = none
  backoffs : ∀ b ∈ e.backoffs, b ∈ env.llm.backoffs

theorem Event.loggedBy_iff {env : NodeEnv} {p : Phase} {e : Event} :
    e.LoggedBy env p ↔
      e.source p ∧ e.execution? = none ∧ ∀ b ∈ e.backoffs, b ∈ env.llm.backoffs :=
  ⟨fun h => ⟨h.source, h.execution, h.backoffs⟩, fun h => ⟨h.1, h.2.1, h.2.2⟩⟩

/-- A node logs only its own events, and no execution of a node. -/
theorem runNode_log (env : NodeEnv) (resume : Option Json) (metrics : Option RunMetrics)
    (p : Phase) (s : AgentState) :
    ∀ e ∈ (runNode ctx env resume metrics p s).log, e.LoggedBy env p := by
  simp only [Event.loggedBy_iff]
  have hx := runNode_exit ctx env s resume metrics p
  generalize runNode ctx env resume metrics p s = run at hx
  cases p with
  | triage => cases hx <;> simp [llmEvent, Event.source, Event.execution?, Event.backoffs]
  | investigate =>
    cases hx with
    | evidence _ log _ _ hlog | gathered _ _ log _ _ hlog =>
      rcases hlog with rfl | ⟨call, args, -, -, rfl⟩ <;>
        simp [llmEvent, Event.source, Event.execution?, Event.backoffs]
    | _ => simp [llmEvent, Event.source, Event.execution?, Event.backoffs]
  | hypothesize => cases hx <;> simp [llmEvent, Event.source, Event.execution?, Event.backoffs]
  | propose =>
    cases hx with
    | nothing log _ _ hlog _ =>
      rcases hlog with rfl | rfl <;>
        simp [llmEvent, Event.source, Event.execution?, Event.backoffs]
    | _ => simp [llmEvent, Event.source, Event.execution?, Event.backoffs]
  | approve => cases hx <;> simp [Event.source, Event.execution?, Event.backoffs]
  | execute =>
    cases hx with
    | returned p ps action r _ _ _ _ _ | raised p ps action r _ _ _ _ _ =>
      simp only [List.mem_cons, List.mem_map]
      rintro e (rfl | ⟨e', -, rfl⟩)
      · exact ⟨rfl, rfl, fun b hb => absurd hb List.not_mem_nil⟩
      · exact ⟨rfl, rfl, fun b hb => absurd hb List.not_mem_nil⟩
    | _ => simp
  | verify => cases hx <;> simp
  | complete =>
    obtain ⟨_, _, _, _, _, he⟩ := completeNode_eq env s metrics
    simp [show run = _ from hx, he]

/-- A node logs only its own events. -/
theorem runNode_source (env : NodeEnv) (resume : Option Json) (metrics : Option RunMetrics)
    (p : Phase) (s : AgentState) :
    ∀ e ∈ (runNode ctx env resume metrics p s).log, e.source p :=
  fun e he => (runNode_log env resume metrics p s e he).source

/-- An event of a step is the node's, or the event of its execution. -/
theorem step_source {t t' : Thread} {a : Label} {fs : List Event}
    (h : (graph ctx).step t a = some (t', fs)) {e : Event} (he : e ∈ fs) {q : Phase}
    (hq : ∀ p, e.source p → p = q) : Enters t q := by
  obtain ⟨p, env, resume, metrics, hstep, hnext⟩ := step_cases h
  have hp : p = q := by
    obtain ⟨-, rfl⟩ := Prod.mk.inj hstep
    rcases List.mem_cons.mp he with rfl | hm
    · exact hq p rfl
    · exact hq p (runNode_source env resume metrics p t.values e hm)
  subst hp
  exact hnext.imp And.left fun hn => ⟨hn.1, hn.2.1⟩

/-- A step that logs an event of a node that only a run step enters executes that node. -/
theorem next_of_source {t t' : Thread} {a : Label} {fs : List Event}
    (h : (graph ctx).step t a = some (t', fs)) {e : Event} (he : e ∈ fs) {q : Phase}
    (hsrc : ∀ p, e.source p → p = q) (hq : q ≠ .approve) : t.next = .node q := by
  rcases step_source h he hsrc with hn | ⟨-, hp⟩
  · exact hn
  · exact absurd hp hq

/-- A step that logs an event of `execute_node`, other than its execution, calls the executor. -/
theorem executor_step {t t' : Thread} {a : Label} {fs : List Event}
    (h : (graph ctx).step t a = some (t', fs)) {e : Event} (he : e ∈ fs)
    (hsrc : ∀ p, e.source p → p = .execute) (hne : e ≠ .node .execute) :
    ∃ (env : NodeEnv) (p : Proposal) (ps : List Proposal) (action : ProposedAction),
      t.next = .node .execute ∧ t.values.proposedActions = p :: ps ∧
      ctx.sreContext = true ∧ actionOf t.values p = .ok action ∧
      fs = .node .execute :: .executorCall action ::
        (ctx.executor.execute env.handlers none action).log.map .executor := by
  have hn : t.next = .node .execute := next_of_source h he hsrc (by decide)
  obtain ⟨env, run, -, hx, hstep⟩ := step_exit h hn
  obtain ⟨-, rfl⟩ := Prod.mk.inj hstep
  cases hx with
  | refused _ => exact absurd (List.mem_singleton.mp he) hne
  | invalid p ps exc _ _ _ => exact absurd (List.mem_singleton.mp he) hne
  | returned p ps action r hp _ hs hact _ => exact ⟨env, p, ps, action, hn, hp, hs, hact, rfl⟩
  | raised p ps action e hp _ hs hact _ => exact ⟨env, p, ps, action, hn, hp, hs, hact, rfl⟩

/-- A dispatch is of the pending proposal. -/
theorem dispatch_step {t t' : Thread} {a : Label} {fs : List Event}
    (h : (graph ctx).step t a = some (t', fs)) {name : String} {args : PyDict}
    {d : PolicyDecision} (hm : .executor (.dispatch name args d) ∈ fs) :
    ∃ (p : Proposal) (ps : List Proposal), t.next = .node .execute ∧
      t.values.proposedActions = p :: ps ∧ name = p.toolName ∧ args = p.toolArgs := by
  obtain ⟨env, p, ps, action, hn, hp, -, hact, rfl⟩ := executor_step h hm (fun _ h => h) nofun
  have hd : ExecEvent.dispatch name args d ∈
      (ctx.executor.execute env.handlers none action).log := by simpa using hm
  obtain ⟨rfl, rfl, -⟩ := SafeExecutor.permitted_of_dispatch hd
  obtain ⟨hname, hargs, -⟩ := ProposedAction.make_ok hact
  exact ⟨p, ps, hn, hp, hname, hargs⟩

end Core
end AutoSRE
