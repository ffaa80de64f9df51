import AutoSRE.Core.Steps

/-!
# Proposals and their approval

- **Places** (`Next.place`). A thread searches for an action, has a proposal approved, has it
  executed, or has ended.
- **Steps** (`GateStep`, `step_gate`). What a step does to a proposal and to its approval.
- **The invariant** (`ProposalInv`, `proposalInv`). At `approve_node` and at `execute_node` a run
  has one proposal, the last that it emitted (`Pending`); a proposal that requires approval is
  executed only with a grant, and a grant was given at an interrupt of the run (`Granted`).
-/

namespace AutoSRE
namespace Core

open Lib Py Safety Tools

/-! ## Places -/

/-- Where a thread is with respect to its proposal. -/
inductive Place where
  | searching
  | approving
  | executing
  | ended
  deriving DecidableEq

/-- The place of what a thread does next. -/
def Next.place : Next → Place
  | .node .approve | .paused => .approving
  | .node .execute => .executing
  | .node .complete | .done | .crashed _ => .ended
  | .node _ => .searching

/-- The event emits or executes a proposal. -/
def Event.marks : Event → Bool
  | .proposed _ | .executorCall _ => true
  | _ => false

/-- No proposal is emitted or executed. -/
def Quiet (fs : List Event) : Prop := ∀ e ∈ fs, e.marks = false

theorem quiet_nil : Quiet [] := by
  intro e he
  cases he

theorem Quiet.append {es fs : List Event} (he : Quiet es) (hf : Quiet fs) : Quiet (es ++ fs) := by
  intro e hm
  rcases List.mem_append.mp hm with h | h
  · exact he e h
  · exact hf e h

theorem Quiet.no_proposal {fs : List Event} (h : Quiet fs) (p : Proposal) : .proposed p ∉ fs :=
  fun hm => by simpa [Event.marks] using h _ hm

/-- The fields of the approval are the same. -/
structure SameApproval (s s' : AgentState) : Prop where
  proposed : s'.proposedActions = s.proposedActions
  required : s'.requiresHumanApproval = s.requiresHumanApproval
  granted : s'.approvalGranted = s.approvalGranted

/-! ## Steps -/

section steps

variable (ctx : GraphContext)

/-- What a step does to a proposal and to its approval. -/
inductive GateStep (t : Thread) (a : Label) : List Event → Thread → Prop
  /-- The run ends, or has nothing more to execute. -/
  | ended {fs : List Event} {t' : Thread} : t'.next.place = .ended → Quiet fs →
      (t'.values.approvalGranted = some true → t.values.approvalGranted = some true) →
      GateStep t a fs t'
  | searched {fs : List Event} {t' : Thread} : t.next.place = .searching →
      t'.next.place = .searching → Quiet fs → SameApproval t.values t'.values → GateStep t a fs t'
  | proposed {t' : Thread} (env : NodeEnv) (confidence : PyFloat) (category : String)
      (sel : Selection) (name : String) (p : Proposal) : a = .run env →
      t.next = .node .propose → t.values.actionAttempts < ctx.maxActionAttempts →
      topConfidence t.values.hypotheses = .ok confidence →
      proposeCategory t.values.incidentMetadata = .ok category →
      Selected ctx env t.values confidence category sel → sel.toolName = some name →
      p = sel.proposal name t.values.incidentMetadata →
      t'.values.proposedActions = [p] → t'.values.requiresHumanApproval = p.requiresApproval →
      t'.values.approvalGranted = t.values.approvalGranted →
      t'.values.actionAttempts = t.values.actionAttempts →
      t'.next = .node (if p.requiresApproval then .approve else .execute) →
      GateStep t a [.node .propose, llmEvent env, .proposed p] t'
  /-- The first pass of `approve_node`. -/
  | requested {t' : Thread} : t.next.place = .approving → t.values.approvalGranted = none →
      SameApproval t.values t'.values → t'.values.actionAttempts = t.values.actionAttempts →
      t'.next = .node .approve → GateStep t a [.node .approve] t'
  | interrupted {t' : Thread} (p : Proposal) (ps : List Proposal) : t.next.place = .approving →
      t.values.proposedActions = p :: ps → t'.values = t.values → t'.next = .paused →
      GateStep t a [.node .approve, .interrupt (interruptPayload t.values.incidentMetadata p)] t'
  /-- `approve_node` does not ask. -/
  | passed {t' : Thread} : Enters t .approve →
      t.values.requiresHumanApproval = false ∨ t.values.approvalGranted = some true →
      SameApproval t.values t'.values → t'.values.actionAttempts = t.values.actionAttempts →
      t'.next = .node .execute → GateStep t a [.node .approve] t'
  | approved {t' : Thread} (decision : Json) (wait : PyFloat) : t.next = .paused →
      approves decision = true →
      t'.values.proposedActions =
        t.values.proposedActions.map (fun p => { p with requiresApproval := false }) →
      t'.values.approvalGranted = some true →
      t'.values.actionAttempts = t.values.actionAttempts → t'.next = .node .execute →
      GateStep t a [.node .approve, .resumed decision, .approvalWait wait] t'
  /-- `execute_node` has nothing to execute, or may not. -/
  | refused {t' : Thread} : t.next = .node .execute →
      t.values.proposedActions = [] ∨ ctx.maxActionAttempts ≤ t.values.actionAttempts ∨
        ctx.sreContext = false →
      SameApproval t.values t'.values → t'.next = .node .verify →
      GateStep t a [.node .execute] t'
  | called {t' : Thread} (env : NodeEnv) (p : Proposal) (ps : List Proposal)
      (action : ProposedAction) : a = .run env → t.next = .node .execute →
      t.values.proposedActions = p :: ps → ctx.sreContext = true →
      actionOf t.values p = .ok action → SameApproval t.values t'.values →
      t'.next = .node .verify →
      GateStep t a (.node .execute :: .executorCall action ::
        (ctx.executor.execute env.handlers none action).log.map .executor) t'

variable {ctx}

variable (ctx) in
/-- Only `propose_node` and `execute_node` emit or execute a proposal. -/
theorem runNode_quiet (env : NodeEnv) (resume : Option Json) (metrics : Option RunMetrics)
    {p : Phase} (hp : p ≠ .propose) (he : p ≠ .execute) (s : AgentState) :
    Quiet (.node p :: (runNode ctx env resume metrics p s).log) := by
  intro e hm
  rcases List.mem_cons.mp hm with rfl | hm
  · rfl
  · have hs := runNode_source env resume metrics p s e hm
    cases e <;> first | rfl | exact absurd hs (by simpa [Event.source] using hp) |
      exact absurd hs (by simpa [Event.source] using he)

theorem routeAfterHypothesize_place (s : AgentState) :
    (Next.node (routeAfterHypothesize s)).place = .searching := by
  rcases routeAfterHypothesize_cases s with h | ⟨h, -⟩ <;> rw [h] <;> rfl

variable {t t' : Thread} {a : Label} {fs : List Event} {env : NodeEnv}
  {metrics : Option RunMetrics}

variable (env) in
/-- A node that only searches for a hypothesis or an action. -/
theorem searching_gate {p : Phase} (hp : p ≠ .propose) (he : p ≠ .execute)
    (hn : t.next = .node p) (resume : Option Json)
    (h : (t', fs) = afterNode p t.values metrics (runNode ctx env resume metrics p t.values))
    (ht' : SameApproval t.values t'.values ∧ (t'.next.place = .ended ∨
      ((Next.node p).place = .searching ∧ t'.next.place = .searching))) :
    GateStep ctx t a fs t' := by
  obtain ⟨ha, hplace⟩ := ht'
  have hq : Quiet fs := (Prod.mk.inj h).2 ▸ runNode_quiet ctx env resume metrics hp he t.values
  rcases hplace with hend | ⟨hs, hs'⟩
  · exact .ended hend hq fun hg => ha.granted ▸ hg
  · exact .searched (hn ▸ hs) hs' hq ha

theorem triage_gate (hn : t.next = .node .triage)
    (h : (t', fs) = afterNode .triage t.values metrics (triageNode ctx env t.values)) :
    GateStep ctx t a fs t' := by
  refine searching_gate _ (by decide) (by decide) hn none h ?_
  have hx := triageNode_exit ctx env t.values
  generalize triageNode ctx env t.values = run at h hx
  cases hx with
  | noAction _ =>
    obtain ⟨rfl, -⟩ := Prod.mk.inj h
    exact ⟨⟨rfl, rfl, rfl⟩, .inl rfl⟩
  | hypotheses _ _ =>
    obtain ⟨rfl, -⟩ := Prod.mk.inj h
    exact ⟨⟨rfl, rfl, rfl⟩, .inr ⟨rfl, rfl⟩⟩

theorem investigate_gate (hn : t.next = .node .investigate)
    (h : (t', fs) = afterNode .investigate t.values metrics (investigateNode ctx env t.values)) :
    GateStep ctx t a fs t' := by
  refine searching_gate _ (by decide) (by decide) hn none h ?_
  have hx := investigateNode_exit ctx env t.values
  generalize investigateNode ctx env t.values = run at h hx
  cases hx with
  | noTools _ | gathered _ _ _ _ _ _ =>
    obtain ⟨rfl, -⟩ := Prod.mk.inj h
    exact ⟨⟨rfl, rfl, rfl⟩, .inr ⟨rfl, rfl⟩⟩
  | schema _ _ | unhashable _ _ _ _ _ | evidence _ _ _ _ _ =>
    obtain ⟨rfl, -⟩ := Prod.mk.inj h
    exact ⟨⟨rfl, rfl, rfl⟩, .inl rfl⟩

theorem hypothesize_gate (hn : t.next = .node .hypothesize)
    (h : (t', fs) = afterNode .hypothesize t.values metrics (hypothesizeNode ctx env t.values)) :
    GateStep ctx t a fs t' := by
  refine searching_gate _ (by decide) (by decide) hn none h ?_
  have hx := hypothesizeNode_exit ctx env t.values
  generalize hypothesizeNode ctx env t.values = run at h hx
  cases hx with
  | confidence _ _ =>
    obtain ⟨rfl, -⟩ := Prod.mk.inj h
    exact ⟨⟨rfl, rfl, rfl⟩, .inl rfl⟩
  | noHypotheses _ _ | kept _ _ _ _ _ _ | refined _ _ _ _ _ =>
    obtain ⟨rfl, -⟩ := Prod.mk.inj h
    exact ⟨⟨rfl, rfl, rfl⟩, .inr ⟨rfl, routeAfterHypothesize_place _⟩⟩

theorem verify_gate (env : NodeEnv) (hn : t.next = .node .verify)
    (h : (t', fs) = afterNode .verify t.values metrics (verifyNode ctx t.values)) :
    GateStep ctx t a fs t' := by
  refine searching_gate env (by decide) (by decide) hn none h ?_
  have hx := verifyNode_exit ctx t.values
  generalize verifyNode ctx t.values = run at h hx
  cases hx with
  | nothing _ | resolved _ _ _ | failed _ _ _ _ =>
    obtain ⟨rfl, -⟩ := Prod.mk.inj h
    exact ⟨⟨rfl, rfl, rfl⟩, .inl rfl⟩
  | retry _ _ _ _ =>
    obtain ⟨rfl, -⟩ := Prod.mk.inj h
    exact ⟨⟨rfl, rfl, rfl⟩, .inr ⟨rfl, rfl⟩⟩

theorem complete_gate (hn : t.next = .node .complete)
    (h : (t', fs) = afterNode .complete t.values metrics (completeNode env metrics t.values)) :
    GateStep ctx t a fs t' := by
  obtain ⟨_, _, _, _, _, he⟩ := completeNode_eq env t.values metrics
  refine searching_gate _ (by decide) (by decide) hn none h ?_
  rw [he] at h
  obtain ⟨rfl, -⟩ := Prod.mk.inj h
  exact ⟨⟨rfl, rfl, rfl⟩, .inl rfl⟩

theorem propose_gate (ha : a = .run env) (hn : t.next = .node .propose)
    (h : (t', fs) = afterNode .propose t.values metrics (proposeNode ctx env t.values)) :
    GateStep ctx t a fs t' := by
  have hx := proposeNode_exit ctx env t.values
  generalize proposeNode ctx env t.values = run at h hx
  cases hx with
  | proposed confidence category sel name p hlt _ hc hcat hsel hname hp _ _ =>
    obtain ⟨rfl, rfl⟩ := Prod.mk.inj h
    refine .proposed env confidence category sel name p ha hn hlt hc hcat hsel hname hp rfl rfl rfl
      rfl ?_
    simp only [settle, routeAfter, routeAfterApproval]
    cases p.requiresApproval <;> rfl
  | nothing log status usage hlog _ =>
    obtain ⟨rfl, rfl⟩ := Prod.mk.inj h
    refine .ended rfl ?_ id
    rcases hlog with rfl | rfl <;> simp [Quiet, Event.marks, llmEvent]
  | _ =>
    obtain ⟨rfl, rfl⟩ := Prod.mk.inj h
    exact .ended rfl (by simp [Quiet, Event.marks]) id

theorem approve_gate {resume : Option Json} (hn : Enters t .approve)
    (hres : ∀ decision, resume = some decision → t.next = .paused)
    (h : (t', fs) = afterNode .approve t.values metrics (approveNode env resume t.values)) :
    GateStep ctx t a fs t' := by
  have hplace : t.next.place = .approving := by
    rcases hn with hn | ⟨hn, -⟩ <;> rw [hn] <;> rfl
  have hq : Quiet fs :=
    (Prod.mk.inj h).2 ▸
      runNode_quiet ctx env resume metrics (p := .approve) (by decide) (by decide) t.values
  have hx := approveNode_exit env t.values resume
  generalize approveNode env resume t.values = run at h hx
  cases hx with
  | notRequired hr =>
    obtain ⟨rfl, rfl⟩ := Prod.mk.inj h
    exact .passed hn (.inl hr) ⟨rfl, rfl, rfl⟩ rfl rfl
  | granted _ hg =>
    obtain ⟨rfl, rfl⟩ := Prod.mk.inj h
    exact .passed hn (.inr hg) ⟨rfl, rfl, rfl⟩ rfl rfl
  | denied _ hg =>
    obtain ⟨rfl, rfl⟩ := Prod.mk.inj h
    exact .ended rfl hq id
  | request _ hg _ =>
    obtain ⟨rfl, rfl⟩ := Prod.mk.inj h
    exact .requested hplace hg ⟨rfl, rfl, rfl⟩ rfl rfl
  | noProposals _ _ _ _ _ =>
    obtain ⟨rfl, rfl⟩ := Prod.mk.inj h
    exact .ended rfl hq id
  | interrupted _ p ps _ _ _ hp _ =>
    obtain ⟨rfl, rfl⟩ := Prod.mk.inj h
    exact .interrupted p ps hplace hp rfl rfl
  | approved _ wait p ps decision _ _ _ _ hr hd =>
    obtain ⟨rfl, rfl⟩ := Prod.mk.inj h
    exact .approved decision wait (hres decision hr) hd rfl rfl rfl rfl
  | rejected _ wait p ps decision _ _ _ _ _ _ =>
    obtain ⟨rfl, rfl⟩ := Prod.mk.inj h
    exact .ended rfl hq (by simp [settle])

theorem execute_gate (ha : a = .run env) (hn : t.next = .node .execute)
    (h : (t', fs) = afterNode .execute t.values metrics (executeNode ctx env t.values)) :
    GateStep ctx t a fs t' := by
  have hx := executeNode_exit ctx env t.values
  generalize executeNode ctx env t.values = run at h hx
  cases hx with
  | refused hr =>
    obtain ⟨rfl, rfl⟩ := Prod.mk.inj h
    exact .refused hn hr ⟨rfl, rfl, rfl⟩ rfl
  | invalid p ps exc _ _ _ =>
    obtain ⟨rfl, rfl⟩ := Prod.mk.inj h
    exact .ended rfl (by simp [Quiet, Event.marks]) id
  | returned p ps action r hp _ hs hact _ =>
    obtain ⟨rfl, rfl⟩ := Prod.mk.inj h
    exact .called env p ps action ha hn hp hs hact ⟨rfl, rfl, rfl⟩ rfl
  | raised p ps action e hp _ hs hact _ =>
    obtain ⟨rfl, rfl⟩ := Prod.mk.inj h
    exact .called env p ps action ha hn hp hs hact ⟨rfl, rfl, rfl⟩ rfl

/-- What a step of the graph does to a proposal and to its approval. -/
theorem step_gate (h : (graph ctx).step t a = some (t', fs)) : GateStep ctx t a fs t' := by
  obtain ⟨p, env, resume, metrics, hstep, ⟨hn, rfl, ha⟩ | ⟨hn, rfl, decision, rfl⟩⟩ := step_cases h
  · cases p with
    | triage => exact triage_gate hn hstep
    | investigate => exact investigate_gate hn hstep
    | hypothesize => exact hypothesize_gate hn hstep
    | propose => exact propose_gate ha hn hstep
    | approve => exact approve_gate (.inl hn) (fun _ hr => by cases hr) hstep
    | execute => exact execute_gate ha hn hstep
    | verify => exact verify_gate env hn hstep
    | complete => exact complete_gate hn hstep
  · exact approve_gate (.inr ⟨hn, rfl⟩) (fun _ _ => hn) hstep

end steps

/-! ## The invariant -/

/-- An interrupt with the payload was resumed with a value that approves. -/
def GrantedFor (es : List Event) (payload : InterruptPayload) : Prop :=
  ∃ pre decision post,
    es = pre ++ .interrupt payload :: .node .approve :: .resumed decision :: post ∧
      approves decision = true

/-- An interrupt of the log was resumed with a value that approves. -/
def Granted (es : List Event) : Prop := ∃ payload, GrantedFor es payload

/-- An interrupt of the log shows the call of the proposal, and was resumed with a value that
approves. -/
def ApprovedIn (p : Proposal) (es : List Event) : Prop :=
  ∃ payload, payload.toolName = p.toolName ∧ payload.toolArgs = p.toolArgs ∧ GrantedFor es payload

theorem GrantedFor.append {es : List Event} {payload : InterruptPayload}
    (h : GrantedFor es payload) (fs : List Event) : GrantedFor (es ++ fs) payload := by
  obtain ⟨pre, decision, post, rfl, hd⟩ := h
  exact ⟨pre, decision, post ++ fs, by simp, hd⟩

theorem GrantedFor.prepend {es : List Event} {payload : InterruptPayload}
    (h : GrantedFor es payload) (fs : List Event) : GrantedFor (fs ++ es) payload := by
  obtain ⟨pre, decision, post, rfl, hd⟩ := h
  exact ⟨fs ++ pre, decision, post, by simp, hd⟩

theorem GrantedFor.interrupt {es : List Event} {payload : InterruptPayload}
    (h : GrantedFor es payload) : .interrupt payload ∈ es := by
  obtain ⟨pre, decision, post, rfl, -⟩ := h
  simp

theorem Granted.append {es : List Event} (h : Granted es) (fs : List Event) :
    Granted (es ++ fs) :=
  h.imp fun _ h => h.append fs

theorem ApprovedIn.append {p : Proposal} {es : List Event} (h : ApprovedIn p es)
    (fs : List Event) : ApprovedIn p (es ++ fs) := by
  obtain ⟨payload, hn, ha, hg⟩ := h
  exact ⟨payload, hn, ha, hg.append fs⟩

/-- Every proposal of the log was executed later. -/
def Settled (es : List Event) : Prop :=
  ∀ pre p post, es = pre ++ .proposed p :: post → ∃ a, .executorCall a ∈ post

theorem settled_nil : Settled [] := by
  intro pre p post h
  simp at h

/-- The part of a log after the last proposal is in it. -/
theorem mem_of_last {es fs pre post : List Event} {p q : Proposal}
    (h : pre ++ .proposed p :: post = es ++ .proposed q :: fs) (hq : .proposed p ∉ fs) :
    (pre = es ∧ p = q ∧ post = fs) ∨ ∃ mid, es = pre ++ .proposed p :: mid ∧
      post = mid ++ .proposed q :: fs := by
  rcases List.append_eq_append_iff.mp h with ⟨l, rfl, hl⟩ | ⟨l, rfl, hl⟩
  · cases l with
    | nil =>
      simp only [List.nil_append, List.cons.injEq, Event.proposed.injEq] at hl
      exact .inl ⟨by simp, hl.1, hl.2⟩
    | cons e l =>
      simp only [List.cons_append, List.cons.injEq] at hl
      obtain ⟨rfl, rfl⟩ := hl
      exact .inr ⟨l, rfl, rfl⟩
  · cases l with
    | nil =>
      simp only [List.nil_append, List.cons.injEq, Event.proposed.injEq] at hl
      exact .inl ⟨by simp, hl.1.symm, hl.2.symm⟩
    | cons e l =>
      simp only [List.cons_append, List.cons.injEq] at hl
      exact absurd (hl.2 ▸ by simp) hq

theorem Settled.quiet {es fs : List Event} (hs : Settled es) (hf : Quiet fs) :
    Settled (es ++ fs) := by
  intro pre p post h
  rcases List.append_eq_append_iff.mp h with ⟨l, rfl, hl⟩ | ⟨l, rfl, hl⟩
  · exact absurd (hl ▸ by simp) (hf.no_proposal p)
  · cases l with
    | nil => exact absurd (by rw [List.nil_append] at hl; rw [← hl]; simp) (hf.no_proposal p)
    | cons e l =>
      simp only [List.cons_append, List.cons.injEq] at hl
      obtain ⟨rfl, rfl⟩ := hl
      obtain ⟨a, ha⟩ := hs pre p l rfl
      exact ⟨a, List.mem_append_left _ ha⟩

/-- `p` is the last proposal of the log, it is not executed yet, and the proposals before it are;
`mid` is the log since. -/
structure Pending (ctx : GraphContext) (es : List Event) (p : Proposal) (mid : List Event) :
    Prop where
  emitted : ∃ pre, es = pre ++ .proposed p :: mid ∧ (ctx.sreContext = true → Settled pre)
  quiet : Quiet mid

namespace Pending

variable {ctx : GraphContext} {es mid fs : List Event} {p : Proposal}

theorem append (h : Pending ctx es p mid) (hf : Quiet fs) :
    Pending ctx (es ++ fs) p (mid ++ fs) := by
  obtain ⟨⟨pre, rfl, hs⟩, hq⟩ := h
  exact ⟨⟨pre, by simp, hs⟩, hq.append hf⟩

theorem mem (h : Pending ctx es p mid) : .proposed p ∈ es := by
  obtain ⟨⟨pre, rfl, -⟩, -⟩ := h
  simp

theorem granted (h : Pending ctx es p mid) {payload : InterruptPayload}
    (hg : GrantedFor mid payload) : GrantedFor es payload := by
  obtain ⟨⟨pre, rfl, -⟩, -⟩ := h
  have := hg.prepend (pre ++ [.proposed p])
  rwa [List.append_assoc, List.singleton_append] at this

/-- A proposal after which nothing is executed is the pending one. -/
theorem eq (h : Pending ctx es p mid) (hsre : ctx.sreContext = true) {pre mid' : List Event}
    {q : Proposal} (he : es = pre ++ .proposed q :: mid')
    (hc : ∀ a, .executorCall a ∉ mid') : q = p ∧ mid' = mid := by
  obtain ⟨⟨pre₀, rfl, hs⟩, hq⟩ := h
  rcases mem_of_last he.symm (hq.no_proposal q) with ⟨-, rfl, rfl⟩ | ⟨l, rfl, rfl⟩
  · exact ⟨rfl, rfl⟩
  · obtain ⟨a, ha⟩ := hs hsre pre q l rfl
    exact absurd (List.mem_append_left _ ha) (hc a)

/-- The log is settled when the pending proposal is executed. -/
theorem settled (h : Pending ctx es p mid) (hsre : ctx.sreContext = true) (hf : Quiet fs)
    {gs : List Event} (hg : Quiet gs) (a : ProposedAction) :
    Settled (es ++ (fs ++ .executorCall a :: gs)) := by
  obtain ⟨⟨pre₀, rfl, hs⟩, hq⟩ := h
  intro pre q post he
  have hno : .proposed q ∉ mid ++ (fs ++ .executorCall a :: gs) := by
    simp [hq.no_proposal, hf.no_proposal, hg.no_proposal]
  rw [List.append_assoc, List.cons_append] at he
  rcases mem_of_last he.symm hno with ⟨-, rfl, rfl⟩ | ⟨l, rfl, rfl⟩
  · exact ⟨a, by simp⟩
  · obtain ⟨b, hb⟩ := hs hsre pre q l rfl
    exact ⟨b, List.mem_append_left _ hb⟩

end Pending

/-- What holds of the proposal at `approve_node`, and while the run waits for the approval. -/
structure Approving (ctx : GraphContext) (es : List Event) (t : Thread) (p : Proposal)
    (mid : List Event) : Prop where
  pending : Pending ctx es p mid
  proposed : t.values.proposedActions = [p]
  required : t.values.requiresHumanApproval = true
  tier : p.requiresApproval = true ∧ 2 ≤ p.riskTier
  attempts : t.values.actionAttempts < ctx.maxActionAttempts
  asked : t.next = .paused → ∃ l payload, mid = l ++ [.interrupt payload] ∧
    payload.toolName = p.toolName ∧ payload.toolArgs = p.toolArgs

/-- What holds of the proposal at `execute_node`: it is the emitted one, up to its flag when it
required approval. The grant is its own when `approve_node` never finds one. -/
structure Executing (ctx : GraphContext) (fresh : Prop) (es : List Event) (t : Thread)
    (p : Proposal) (mid : List Event) : Prop where
  pending : Pending ctx es p mid
  required : p.requiresApproval = decide (2 ≤ p.riskTier)
  proposed : ∃ b, t.values.proposedActions = [{ p with requiresApproval := b }] ∧
    (p.requiresApproval = false → b = false)
  attempts : t.values.actionAttempts < ctx.maxActionAttempts
  granted : p.requiresApproval = true → t.values.approvalGranted = some true
  approved : fresh → p.requiresApproval = true → ApprovedIn p mid

/-- `approve_node` does not find a grant that is there already. -/
def FreshApproval (t : Thread) (_ : Label) : Prop :=
  Enters t .approve → t.values.approvalGranted ≠ some true

/-- What holds of the proposal of a run after every step; `fresh` says that `approve_node` never
found a grant. -/
structure ProposalInv (ctx : GraphContext) (fresh : Prop) (es : List Event) (t : Thread) :
    Prop where
  approving : t.next.place = .approving → ∃ p mid, Approving ctx es t p mid
  executing : t.next.place = .executing → ∃ p mid, Executing ctx fresh es t p mid
  settled : t.next.place = .searching → ctx.sreContext = true → Settled es
  granted : t.values.approvalGranted = some true → Granted es

variable {ctx : GraphContext} {fresh : Prop}

namespace ProposalInv

variable {es : List Event} {t : Thread}

theorem ofEnded (hp : t.next.place = .ended)
    (hg : t.values.approvalGranted = some true → Granted es) : ProposalInv ctx fresh es t where
  approving h := by simp [hp] at h
  executing h := by simp [hp] at h
  settled h := by simp [hp] at h
  granted := hg

theorem ofSearching (hp : t.next.place = .searching)
    (hs : ctx.sreContext = true → Settled es)
    (hg : t.values.approvalGranted = some true → Granted es) : ProposalInv ctx fresh es t where
  approving h := by simp [hp] at h
  executing h := by simp [hp] at h
  settled _ := hs
  granted := hg

theorem ofApproving (hp : t.next.place = .approving) {p : Proposal} {mid : List Event}
    (ha : Approving ctx es t p mid)
    (hg : t.values.approvalGranted = some true → Granted es) : ProposalInv ctx fresh es t where
  approving _ := ⟨p, mid, ha⟩
  executing h := by simp [hp] at h
  settled h := by simp [hp] at h
  granted := hg

theorem ofExecuting (hp : t.next.place = .executing) {p : Proposal} {mid : List Event}
    (he : Executing ctx fresh es t p mid)
    (hg : t.values.approvalGranted = some true → Granted es) : ProposalInv ctx fresh es t where
  approving h := by simp [hp] at h
  executing _ := ⟨p, mid, he⟩
  settled h := by simp [hp] at h
  granted := hg

end ProposalInv

theorem initial_place {t : Thread} (h : (graph ctx).init t) : t.next.place = .searching := by
  obtain ⟨metadata, budget, now, hv, hn⟩ := h
  rw [hn, hv]
  rfl

theorem proposalInv_init {t : Thread} (h : (graph ctx).init t) : ProposalInv ctx fresh [] t := by
  refine .ofSearching (initial_place h) (fun _ => settled_nil) fun hg => ?_
  obtain ⟨metadata, budget, now, hv, -⟩ := h
  rw [hv] at hg
  cases hg

theorem calls_quiet (log : List ExecEvent) : Quiet (log.map .executor) := by
  intro e he
  obtain ⟨e', -, rfl⟩ := List.mem_map.mp he
  rfl

theorem quiet_singleton {e : Event} (h : e.marks = false) : Quiet [e] := by
  intro e' he
  rw [List.mem_singleton.mp he, h]

/-- A step keeps the invariant. -/
theorem proposalInv_step {es fs : List Event} {t t' : Thread} {a : Label}
    (hi : ProposalInv ctx fresh es t) (hf : fresh → FreshApproval t a)
    (h : GateStep ctx t a fs t') : ProposalInv ctx fresh (es ++ fs) t' := by
  have hkept : t'.values.approvalGranted = t.values.approvalGranted →
      t'.values.approvalGranted = some true → Granted (es ++ fs) :=
    fun he hg => (hi.granted (he ▸ hg)).append fs
  cases h with
  | ended hp _ hg => exact .ofEnded hp fun h => (hi.granted (hg h)).append fs
  | searched ht hp hq ha =>
    exact .ofSearching hp (fun hsre => (hi.settled ht hsre).quiet hq) (hkept ha.granted)
  | proposed env confidence category sel name p _ ht hlt _ _ _ _ hp hprop hreq hgr hatt hn =>
    have hquiet : Quiet [.node .propose, llmEvent env] := by simp [Quiet, Event.marks, llmEvent]
    have hpend : Pending ctx (es ++ [.node .propose, llmEvent env, .proposed p]) p [] :=
      ⟨⟨es ++ [.node .propose, llmEvent env], by simp, fun hsre =>
        (hi.settled (by rw [ht]; rfl) hsre).quiet hquiet⟩, quiet_nil⟩
    have htier : p.requiresApproval = decide (2 ≤ p.riskTier) := by rw [hp]; rfl
    cases hr : p.requiresApproval with
    | true =>
      rw [hr, if_pos rfl] at hn
      exact .ofApproving (by rw [hn]; rfl)
        ⟨hpend, hprop, hreq.trans hr, ⟨hr, by simpa [hr] using htier⟩, hatt ▸ hlt,
          fun h => by rw [hn] at h; cases h⟩ (hkept hgr)
    | false =>
      rw [hr, if_neg Bool.false_ne_true] at hn
      exact .ofExecuting (by rw [hn]; rfl)
        ⟨hpend, htier, ⟨p.requiresApproval, hprop, fun _ => hr⟩, hatt ▸ hlt,
          fun h => by (rw [hr] at h; cases h), fun _ h => by (rw [hr] at h; cases h)⟩ (hkept hgr)
  | requested ht _ ha hatt hn =>
    obtain ⟨p, mid, hpa⟩ := hi.approving ht
    exact .ofApproving (by rw [hn]; rfl)
      ⟨hpa.pending.append (quiet_singleton rfl), ha.proposed ▸ hpa.proposed,
        ha.required ▸ hpa.required, hpa.tier, hatt ▸ hpa.attempts,
        fun h => by rw [hn] at h; cases h⟩ (hkept ha.granted)
  | interrupted p ps ht hp hv hn =>
    obtain ⟨q, mid, hpa⟩ := hi.approving ht
    obtain ⟨rfl, -⟩ : q = p ∧ [] = ps := by simpa [hpa.proposed] using hp
    exact .ofApproving (by rw [hn]; rfl)
      ⟨hpa.pending.append (by simp [Quiet, Event.marks]), hv ▸ hpa.proposed, hv ▸ hpa.required,
        hpa.tier, hv ▸ hpa.attempts,
        fun _ => ⟨mid ++ [.node .approve], interruptPayload t.values.incidentMetadata q, by simp,
          rfl, rfl⟩⟩
      (hkept (by rw [hv]))
  | passed ht hg ha hatt hn =>
    have hpl : t.next.place = .approving := by
      rcases ht with ht | ⟨ht, -⟩ <;> rw [ht] <;> rfl
    obtain ⟨p, mid, hpa⟩ := hi.approving hpl
    -- The proposal requires approval, so there is a grant.
    have hgr : t.values.approvalGranted = some true := hg.resolve_left (by simp [hpa.required])
    exact .ofExecuting (by rw [hn]; rfl)
      ⟨hpa.pending.append (quiet_singleton rfl), by simp [hpa.tier],
        ⟨p.requiresApproval, ha.proposed ▸ hpa.proposed, id⟩, hatt ▸ hpa.attempts,
        fun _ => ha.granted ▸ hgr, fun h _ => absurd hgr (hf h ht)⟩ (hkept ha.granted)
  | approved decision wait ht hd hp hg hatt hn =>
    obtain ⟨p, mid, hpa⟩ := hi.approving (by rw [ht]; rfl)
    obtain ⟨l, payload, rfl, hname, hargs⟩ := hpa.asked ht
    have hgr : GrantedFor (l ++ [.interrupt payload] ++
        [.node .approve, .resumed decision, .approvalWait wait]) payload :=
      ⟨l, decision, [.approvalWait wait], by simp, hd⟩
    have hq : Quiet [.node .approve, .resumed decision, .approvalWait wait] := by
      simp [Quiet, Event.marks]
    have hpend := hpa.pending.append hq
    exact .ofExecuting (by rw [hn]; rfl)
      ⟨hpend, by simp [hpa.tier], ⟨false, by simp [hp, hpa.proposed], fun _ => rfl⟩,
        hatt ▸ hpa.attempts, fun _ => hg, fun _ _ => ⟨payload, hname, hargs, hgr⟩⟩
      fun _ => ⟨payload, hpend.granted hgr⟩
  | refused ht hr ha hn =>
    obtain ⟨p, mid, hpe⟩ := hi.executing (by rw [ht]; rfl)
    obtain ⟨b, hb, -⟩ := hpe.proposed
    have hlt := hpe.attempts
    refine .ofSearching (by rw [hn]; rfl) (fun hsre => ?_) (hkept ha.granted)
    rcases hr with hr | hr | hr
    · simp [hb] at hr
    · omega
    · simp [hsre] at hr
  | called env p ps action _ ht _ _ _ ha hn =>
    obtain ⟨q, mid, hpe⟩ := hi.executing (by rw [ht]; rfl)
    exact .ofSearching (by rw [hn]; rfl)
      (fun hsre => hpe.pending.settled hsre (show Quiet [.node .execute] from quiet_singleton rfl)
        (calls_quiet _) action) (hkept ha.granted)

/-- The invariant holds after every run. -/
theorem proposalInv {C : Thread → Label → Prop} {n : Nat} {es : List Event} {t : Thread}
    (hr : (graph ctx).Run C n es t) : ProposalInv ctx False es t :=
  hr.inv (fun _ => proposalInv_init) fun _ _ _ _ _ _ _ hi _ hs =>
    proposalInv_step hi False.elim (step_gate hs)

/-- The invariant after a run in which `approve_node` never finds a grant. -/
theorem proposalInv_fresh {n : Nat} {es : List Event} {t : Thread}
    (hr : (graph ctx).Run FreshApproval n es t) : ProposalInv ctx True es t :=
  hr.inv (fun _ => proposalInv_init) fun _ _ _ _ _ _ _ hi hc hs =>
    proposalInv_step hi (fun _ => hc) (step_gate hs)

end Core
end AutoSRE
