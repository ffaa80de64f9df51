import AutoSRE.Core.Confidence

/-!
# Exceptions that escape a node

- **The condition** (`Guarded`). What the answers, the registry and the proposals must be like for
  no exception to escape: an unhashable name, an evidence that is no sequence and a negative tier
  escape (`negative_tier_escapes`).
- **Soundness and rank** (`Sound`, `rank`). A guarded step keeps a thread sound and lowers its rank
  (`step_advances`).
- **Guarded runs** (`guarded_run_handled`). No exception escapes, the length of a run is bounded,
  and a run that does not wait for an approval ends with a final status.
-/

namespace AutoSRE
namespace Core

open Lib Py Safety Tools

/-! ## The condition -/

section guarded

variable (ctx : GraphContext)

/-- The first tool call of an answer that `investigate_node` uses has a name that can be looked up,
unless the incident has no namespace. -/
def NamesHashable (env : NodeEnv) (s : AgentState) : Prop :=
  ∀ r parsed usage c cs call, env.llm.outcome.parsed "investigate" false = .ok (r, parsed) →
    accumulateUsage ctx s.usage r env.llm.promptChars = .ok usage →
    PyDict.getD parsed "tools" (.arr []) = .arr (c :: cs) → c.asDict? = some call →
    investigateNamespace s.incidentMetadata ≠ none → (callName call).hashable = true

/-- What a step must be like for no exception to escape. -/
structure Guarded (t : Thread) (a : Label) : Prop where
  /-- The schemas of the read-only tools can be exported. -/
  readOnlySchemas : t.next = .node .investigate →
    ∃ schemas, toolSchemas (readOnlyTools ctx) = .ok schemas
  names : t.next = .node .investigate → (readOnlyTools ctx).isEmpty = false →
    ∀ env, a = .run env → NamesHashable ctx env t.values
  evidence : t.next = .node .investigate → (readOnlyTools ctx).isEmpty = false →
    ∀ d ∈ t.values.hypotheses, EvidenceOk d
  /-- The schemas of the tools that can be proposed can be exported. -/
  eligibleSchemas : t.next = .node .propose →
    ∃ schemas, toolSchemas (eligibleTools ctx) = .ok schemas
  /-- A proposal that runs without a grant has a tier. -/
  tier : t.next = .node .execute → ctx.sreContext = true →
    t.values.approvalGranted ≠ some true →
    ∀ p ps, t.values.proposedActions = p :: ps → 0 ≤ p.riskTier

/-! ## What every guarded run keeps -/

/-- The number of investigations that a run can need. -/
def maxInvestigations : Int := max 3 ctx.initialIterationBudget

/-- An approval that is required is decided. -/
def Decided (s : AgentState) : Prop :=
  s.requiresHumanApproval = true → s.approvalGranted ≠ none

/-- The budget and the count of investigations. -/
structure Budgeted (s : AgentState) : Prop where
  count_nonneg : 0 ≤ s.iterationCount
  count_le : s.iterationCount ≤ maxInvestigations ctx
  sum_le : s.iterationBudget + s.iterationCount ≤ maxInvestigations ctx

/-- What holds when a node is next. -/
def AtNode (s : AgentState) : Phase → Prop
  | .triage => s.requiresHumanApproval = false
  | .investigate => Decided s ∧ Budgeted ctx s ∧
      (s.iterationCount = 0 ∨ s.iterationBudget ≤ 0 ∧ s.iterationCount < 3 ∨
        s.iterationCount < s.iterationBudget)
  | .hypothesize => Decided s ∧ Budgeted ctx s
  | .propose | .verify | .complete => Decided s
  | .approve => s.requiresHumanApproval = true ∧ s.actionAttempts < ctx.maxActionAttempts ∧
      ∃ p, s.proposedActions = [p]
  | .execute => Decided s ∧ s.actionAttempts < ctx.maxActionAttempts ∧
      ∃ p, s.proposedActions = [p] ∧ (2 ≤ p.riskTier → s.approvalGranted = some true)

/-- What holds of what is next. -/
def AtNext (s : AgentState) : Next → Prop
  | .node p => AtNode ctx s p
  | .paused => s.requiresHumanApproval = true ∧ s.actionAttempts < ctx.maxActionAttempts ∧
      s.approvalGranted = none ∧ s.approvalRequestedAt ≠ none ∧ ∃ p, s.proposedActions = [p]
  | .done => s.status ≠ .running
  | .crashed _ => False

/-- What holds after every step of a guarded run. -/
structure Sound (t : Thread) : Prop where
  metadata : ∃ m : IncidentMetadata, t.values.incidentMetadata = m.modelDump
  floatable : Floatable t.values.hypotheses
  context : ctx.sreContext = false → t.values.executedActions = []
  next : AtNext ctx t.values t.next

/-- The steps that the proposals of a run can still need. -/
def proposalRank (s : AgentState) : Nat := 6 * (ctx.maxActionAttempts - s.actionAttempts).toNat + 3

/-- The steps that the investigations of a run can still need. -/
def searchRank (s : AgentState) : Nat := 2 * (maxInvestigations ctx - s.iterationCount).toNat

/-- The rank of a thread: a bound on the steps that are left. -/
def rankOf (s : AgentState) : Next → Nat
  | .node .triage =>
    6 * ctx.maxActionAttempts.toNat + 3 + 2 * (maxInvestigations ctx).toNat + 1
  | .node .investigate => proposalRank ctx s + searchRank ctx s
  | .node .hypothesize => proposalRank ctx s + searchRank ctx s + 1
  | .node .propose => proposalRank ctx s
  | .node .approve => proposalRank ctx s - (if s.approvalRequestedAt.isNone then 1 else 2)
  | .paused => proposalRank ctx s - 3
  | .node .execute => proposalRank ctx s - 4
  | .node .verify => if s.executedActions.isEmpty then 3 else proposalRank ctx s + 1
  | .node .complete => 2
  | .done => 1
  | .crashed _ => 0

/-- The rank of a thread. -/
def rank (t : Thread) : Nat := rankOf ctx t.values t.next

/-- A bound on the steps of a run. -/
def stepBound : Nat := 6 * ctx.maxActionAttempts.toNat + 3 + 2 * (maxInvestigations ctx).toNat + 1

/-! ## The steps of a guarded run -/

variable {ctx} {t t' : Thread} {fs : List Event} {env : NodeEnv} {metrics : Option RunMetrics}

/-- An exception escaped a node. -/
def Crashed (t : Thread) : Prop := ∃ exc, t.next = .crashed exc

theorem not_crashed_node {p : Phase} (h : t.next = .node p) : ¬ Crashed t := by
  rintro ⟨exc, hc⟩
  rw [h] at hc
  cases hc

/-- The thread is sound, and closer to its end. -/
structure Advances (ctx : GraphContext) (t t' : Thread) : Prop where
  sound : Sound ctx t'
  rank_lt : rank ctx t' < rank ctx t

variable (ctx) in
theorem maxInvestigations_ge : 3 ≤ maxInvestigations ctx := by
  unfold maxInvestigations
  omega

variable (ctx) in
theorem initialBudget_le : ctx.initialIterationBudget ≤ maxInvestigations ctx := by
  unfold maxInvestigations
  omega

theorem triage_advances (hs : Sound ctx t) (hn : t.next = .node .triage)
    (h : (t', fs) = afterNode .triage t.values metrics (triageNode ctx env t.values)) :
    Advances ctx t t' := by
  have hat : t.values.requiresHumanApproval = false := by simpa [hn, AtNext, AtNode] using hs.next
  have hrank : rank ctx t = stepBound ctx := by rw [rank, hn]; rfl
  have h3 := maxInvestigations_ge ctx
  have hb := initialBudget_le ctx
  have hx := triageNode_exit ctx env t.values
  generalize triageNode ctx env t.values = run at h hx
  cases hx with
  | noAction usage =>
    obtain ⟨rfl, -⟩ := Prod.mk.inj h
    refine ⟨⟨hs.metadata, floatable_nil, hs.context, ?_⟩, ?_⟩
    · exact fun hr => absurd (hat.symm.trans hr) nofun
    · rw [hrank]
      show 2 < stepBound ctx
      unfold stepBound
      omega
  | hypotheses raw usage =>
    obtain ⟨rfl, -⟩ := Prod.mk.inj h
    refine ⟨⟨hs.metadata, floatable_normalizeSafe raw (floatable_triageFallback _), hs.context, ?_⟩,
      ?_⟩
    · refine ⟨fun hr => absurd (hat.symm.trans hr) nofun, ⟨?_, ?_, ?_⟩, .inl rfl⟩
      · exact Int.le_refl 0
      · show (0 : Int) ≤ maxInvestigations ctx
        omega
      · show ctx.initialIterationBudget + 0 ≤ maxInvestigations ctx
        omega
    · rw [hrank]
      show 6 * (ctx.maxActionAttempts - 0).toNat + 3 + 2 * (maxInvestigations ctx - 0).toNat < _
      unfold stepBound
      omega

/-- The first call of a guarded step has a name that can be looked up. -/
theorem firstCall_hashable {s : AgentState} {call : PyDict} (hnames : NamesHashable ctx env s)
    (h : firstCall ctx env s = some call) (hns : investigateNamespace s.incidentMetadata ≠ none) :
    (callName call).hashable = true := by
  rcases firstCall_some h with ⟨r, parsed, usage, c, cs, hp, hu, htools, hdict⟩ | ⟨tool, -, hname⟩
  · exact hnames r parsed usage c cs call hp hu htools hdict hns
  · rw [hname]
    rfl

theorem investigate_progress (hs : Sound ctx t) (hn : t.next = .node .investigate)
    (h : (t', fs) = afterNode .investigate t.values metrics (investigateNode ctx env t.values)) :
    Crashed t' ∨ Advances ctx t t' := by
  obtain ⟨hdec, hbud, hmore⟩ : AtNode ctx t.values .investigate := by
    simpa only [hn, AtNext] using hs.next
  have h3 := maxInvestigations_ge ctx
  have h0 := hbud.count_nonneg
  have hsum := hbud.sum_le
  -- The count after the investigation is in the budget.
  have hbud' : Budgeted ctx (investigated t.values) := by
    constructor <;> simp only [investigated] <;> omega
  have hrank : proposalRank ctx t.values + 2 *
      (maxInvestigations ctx - (t.values.iterationCount + 1)).toNat + 1 < rank ctx t := by
    rw [rank, hn]
    simp only [rankOf, searchRank]
    omega
  have hx := investigateNode_exit ctx env t.values
  generalize investigateNode ctx env t.values = run at h hx
  cases hx with
  | noTools _ =>
    obtain ⟨rfl, -⟩ := Prod.mk.inj h
    exact .inr ⟨⟨hs.metadata, hs.floatable, hs.context, hdec, hbud'⟩, hrank⟩
  | schema exc _ | unhashable _ exc _ _ _ | evidence _ _ exc _ _ =>
    obtain ⟨rfl, -⟩ := Prod.mk.inj h
    exact .inl ⟨exc, rfl⟩
  | gathered results hypotheses log usage hok _ =>
    obtain ⟨rfl, -⟩ := Prod.mk.inj h
    exact .inr ⟨⟨hs.metadata, floatable_appendAllEvidence hok hs.floatable, hs.context, hdec,
      hbud'.count_nonneg, hbud'.count_le, hbud'.sum_le⟩, hrank⟩

theorem investigate_guarded (hn : t.next = .node .investigate) (hg : Guarded ctx t (.run env))
    (h : (t', fs) = afterNode .investigate t.values metrics (investigateNode ctx env t.values)) :
    ¬ Crashed t' := by
  have hlog := investigateNode_log_noTools ctx env t.values
  have hx := investigateNode_exit ctx env t.values
  generalize investigateNode ctx env t.values = run at h hx hlog
  -- Only a node with read-only tools calls the language model.
  have htools : run.log ≠ [] → (readOnlyTools ctx).isEmpty = false := fun hne => by
    cases he : (readOnlyTools ctx).isEmpty with
    | false => rfl
    | true => exact absurd (hlog he) hne
  cases hx with
  | noTools _ | gathered _ _ _ _ _ _ =>
    obtain ⟨rfl, -⟩ := Prod.mk.inj h
    exact not_crashed_node rfl
  | schema exc he =>
    obtain ⟨schemas, hok⟩ := hg.readOnlySchemas hn
    rw [hok] at he
    cases he
  | unhashable call exc hcall hh hns =>
    have := firstCall_hashable (hg.names hn (htools (by simp)) env rfl) hcall hns
    rw [hh] at this
    cases this
  | evidence results log exc he _ =>
    obtain ⟨hs', hok⟩ := appendAllEvidence_ok results (hg.evidence hn (htools (by simp)))
    rw [hok] at he
    cases he

/-- What `hypothesize_node` does not change. -/
structure SameProgress (s s' : AgentState) : Prop where
  metadata : s'.incidentMetadata = s.incidentMetadata
  executed : s'.executedActions = s.executedActions
  required : s'.requiresHumanApproval = s.requiresHumanApproval
  granted : s'.approvalGranted = s.approvalGranted
  attempts : s'.actionAttempts = s.actionAttempts
  count : s'.iterationCount = s.iterationCount
  budget : s'.iterationBudget = s.iterationBudget

theorem hypothesized_advances (hs : Sound ctx t) (hn : t.next = .node .hypothesize)
    (hf : Floatable t'.values.hypotheses) (hp : SameProgress t.values t'.values)
    (hn' : t'.next = .node (routeAfterHypothesize t'.values)) : Advances ctx t t' := by
  obtain ⟨hdec, hbud⟩ : AtNode ctx t.values .hypothesize := by
    simpa only [hn, AtNext] using hs.next
  have hdec' : Decided t'.values := by
    intro h
    rw [hp.granted]
    exact hdec (hp.required ▸ h)
  have hbud' : Budgeted ctx t'.values := by
    constructor
    · exact hp.count ▸ hbud.count_nonneg
    · exact hp.count ▸ hbud.count_le
    · exact hp.budget ▸ hp.count ▸ hbud.sum_le
  have hrank : rank ctx t = proposalRank ctx t'.values + searchRank ctx t'.values + 1 := by
    rw [rank, hn]
    simp only [rankOf, proposalRank, searchRank, hp.attempts, hp.count]
  refine ⟨⟨hp.metadata ▸ hs.metadata, hf, fun h => hp.executed ▸ hs.context h, ?_⟩, ?_⟩
  · rw [hn']
    rcases routeAfterHypothesize_cases t'.values with hr | ⟨hr, hmore⟩ <;> rw [hr]
    · exact hdec'
    · exact ⟨hdec', hbud', .inr hmore⟩
  · rw [hrank, rank, hn']
    rcases routeAfterHypothesize_cases t'.values with hr | ⟨hr, -⟩ <;> rw [hr] <;>
      simp only [rankOf] <;> omega

theorem hypothesize_advances (hs : Sound ctx t) (hn : t.next = .node .hypothesize)
    (h : (t', fs) = afterNode .hypothesize t.values metrics (hypothesizeNode ctx env t.values)) :
    Advances ctx t t' := by
  have hx := hypothesizeNode_exit ctx env t.values
  generalize hypothesizeNode ctx env t.values = run at h hx
  cases hx with
  | confidence exc he =>
    obtain ⟨c, hc⟩ := hs.floatable
    rw [hc] at he
    cases he
  | noHypotheses _ _ | kept _ _ _ _ _ _ =>
    obtain ⟨rfl, -⟩ := Prod.mk.inj h
    exact hypothesized_advances hs hn hs.floatable ⟨rfl, rfl, rfl, rfl, rfl, rfl, rfl⟩ rfl
  | refined r phase _ hr _ =>
    obtain ⟨rfl, -⟩ := Prod.mk.inj h
    exact hypothesized_advances hs hn (hypothesizeAnswer_floatable hr)
      ⟨rfl, rfl, rfl, rfl, rfl, rfl, rfl⟩ rfl

theorem propose_progress (hs : Sound ctx t) (hn : t.next = .node .propose)
    (h : (t', fs) = afterNode .propose t.values metrics (proposeNode ctx env t.values)) :
    Crashed t' ∨ Advances ctx t t' := by
  have hdec : Decided t.values := by simpa only [hn, AtNext, AtNode] using hs.next
  have hrank : rank ctx t = proposalRank ctx t.values := by rw [rank, hn]; rfl
  have hend : 2 < rank ctx t := by
    rw [hrank]
    unfold proposalRank
    omega
  have hx := proposeNode_exit ctx env t.values
  generalize proposeNode ctx env t.values = run at h hx
  cases hx with
  | capped _ | noHypotheses _ | nothing _ _ _ _ _ =>
    obtain ⟨rfl, -⟩ := Prod.mk.inj h
    exact .inr ⟨⟨hs.metadata, hs.floatable, hs.context, hdec⟩, hend⟩
  | confidence exc he =>
    obtain ⟨c, hc⟩ := hs.floatable
    rw [hc] at he
    cases he
  | category exc he =>
    obtain ⟨m, hm⟩ := hs.metadata
    obtain ⟨category, hc⟩ := proposeCategory_modelDump m
    rw [hm, hc] at he
    cases he
  | schema exc _ =>
    obtain ⟨rfl, -⟩ := Prod.mk.inj h
    exact .inl ⟨exc, rfl⟩
  | proposed confidence category sel name p hlt _ _ _ _ _ hp _ _ =>
    obtain ⟨rfl, -⟩ := Prod.mk.inj h
    have htier : p.requiresApproval = decide (2 ≤ p.riskTier) := by rw [hp]; rfl
    have h9 : 9 ≤ proposalRank ctx t.values := by unfold proposalRank; omega
    refine .inr ⟨⟨hs.metadata, hs.floatable, hs.context, ?_⟩, ?_⟩
    · simp only [settle, routeAfter, routeAfterApproval]
      cases hr : p.requiresApproval with
      | false =>
        refine ⟨fun h => ?_, hlt, p, rfl, fun h2 => ?_⟩
        · cases h
        · simp [hr, h2] at htier
      | true => exact ⟨rfl, hlt, p, rfl⟩
    · rw [hrank]
      simp only [settle, routeAfter, routeAfterApproval, rank]
      cases p.requiresApproval with
      | false =>
        show proposalRank ctx t.values - 4 < _
        omega
      | true =>
        show proposalRank ctx t.values -
          (if t.values.approvalRequestedAt.isNone then 1 else 2) < _
        split <;> omega

theorem propose_guarded (hs : Sound ctx t) (hn : t.next = .node .propose)
    (hg : Guarded ctx t (.run env))
    (h : (t', fs) = afterNode .propose t.values metrics (proposeNode ctx env t.values)) :
    ¬ Crashed t' := by
  have hx := proposeNode_exit ctx env t.values
  generalize proposeNode ctx env t.values = run at h hx
  cases hx with
  | confidence exc he =>
    obtain ⟨c, hc⟩ := hs.floatable
    rw [hc] at he
    cases he
  | category exc he =>
    obtain ⟨m, hm⟩ := hs.metadata
    obtain ⟨category, hc⟩ := proposeCategory_modelDump m
    rw [hm, hc] at he
    cases he
  | schema exc he =>
    obtain ⟨schemas, hok⟩ := hg.eligibleSchemas hn
    rw [hok] at he
    cases he
  | capped _ | noHypotheses _ | nothing _ _ _ _ _ | proposed _ _ _ _ _ _ _ _ _ _ _ _ _ _ =>
    obtain ⟨rfl, -⟩ := Prod.mk.inj h
    exact not_crashed_node rfl

theorem approve_advances (hs : Sound ctx t) (hn : t.next = .node .approve)
    (h : (t', fs) = afterNode .approve t.values metrics (approveNode env none t.values)) :
    Advances ctx t t' := by
  obtain ⟨hreq, hlt, p, hp⟩ : AtNode ctx t.values .approve := by
    simpa only [hn, AtNext] using hs.next
  have hrank : rank ctx t =
      proposalRank ctx t.values - (if t.values.approvalRequestedAt.isNone then 1 else 2) := by
    rw [rank, hn]; rfl
  have h9 : 9 ≤ proposalRank ctx t.values := by unfold proposalRank; omega
  have hx := approveNode_exit env t.values none
  generalize approveNode env none t.values = run at h hx
  cases hx with
  | notRequired hr => exact absurd (hr.symm.trans hreq) nofun
  | granted _ hgr =>
    obtain ⟨rfl, -⟩ := Prod.mk.inj h
    refine ⟨⟨hs.metadata, hs.floatable, hs.context, fun _ => ?_, hlt, p, hp, fun _ => hgr⟩, ?_⟩
    · show t.values.approvalGranted ≠ none
      rw [hgr]
      nofun
    · rw [hrank]
      show proposalRank ctx t.values - 4 < _
      split <;> omega
  | denied _ hgr =>
    obtain ⟨rfl, -⟩ := Prod.mk.inj h
    refine ⟨⟨hs.metadata, hs.floatable, hs.context, fun _ => ?_⟩, ?_⟩
    · show t.values.approvalGranted ≠ none
      rw [hgr]
      nofun
    · rw [hrank]
      show 2 < _
      split <;> omega
  | request _ _ ht =>
    obtain ⟨rfl, -⟩ := Prod.mk.inj h
    refine ⟨⟨hs.metadata, hs.floatable, hs.context, hreq, hlt, p, hp⟩, ?_⟩
    rw [hrank, ht]
    show proposalRank ctx t.values - 2 < proposalRank ctx t.values - 1
    omega
  | noProposals _ _ _ _ hnil =>
    rw [hp] at hnil
    cases hnil
  | interrupted requestedAt q qs _ hgr ht hq _ =>
    obtain ⟨rfl, -⟩ := Prod.mk.inj h
    refine ⟨⟨hs.metadata, hs.floatable, hs.context, hreq, hlt, hgr, ?_, p, hp⟩, ?_⟩
    · show t.values.approvalRequestedAt ≠ none
      rw [ht]
      nofun
    · rw [hrank, ht]
      show proposalRank ctx t.values - 3 < proposalRank ctx t.values - 2
      omega
  | approved _ _ _ _ _ _ _ _ _ hr _ => cases hr
  | rejected _ _ _ _ _ _ _ _ _ hr _ => cases hr

theorem resume_advances (hs : Sound ctx t) (hn : t.next = .paused) {decision : Json}
    (h : (t', fs) = afterNode .approve t.values metrics
      (approveNode env (some decision) t.values)) : Advances ctx t t' := by
  obtain ⟨hreq, hlt, hnone, hasked, p, hp⟩ : AtNext ctx t.values .paused := hn ▸ hs.next
  have hrank : rank ctx t = proposalRank ctx t.values - 3 := by rw [rank, hn]; rfl
  have h9 : 9 ≤ proposalRank ctx t.values := by unfold proposalRank; omega
  have hx := approveNode_exit env t.values (some decision)
  generalize approveNode env (some decision) t.values = run at h hx
  cases hx with
  | notRequired hr => exact absurd (hr.symm.trans hreq) nofun
  | granted _ hgr | denied _ hgr =>
    rw [hnone] at hgr
    cases hgr
  | request _ _ ht => exact absurd ht hasked
  | noProposals _ _ _ _ hnil =>
    rw [hp] at hnil
    cases hnil
  | interrupted _ _ _ _ _ _ _ hr => cases hr
  | approved requestedAt wait q qs d _ _ _ hq _ _ =>
    obtain ⟨rfl, -⟩ := Prod.mk.inj h
    refine ⟨⟨hs.metadata, hs.floatable, hs.context, fun _ => ?_, hlt,
      { p with requiresApproval := false }, ?_, fun _ => rfl⟩, ?_⟩
    · exact nofun
    · show t.values.proposedActions.map _ = _
      rw [hp]
      rfl
    · rw [hrank]
      show proposalRank ctx t.values - 4 < _
      omega
  | rejected requestedAt wait q qs d _ _ _ _ _ _ =>
    obtain ⟨rfl, -⟩ := Prod.mk.inj h
    refine ⟨⟨hs.metadata, hs.floatable, hs.context, fun _ => nofun⟩, ?_⟩
    rw [hrank]
    show 2 < _
    omega

/-- A guarded proposal is a valid action. -/
theorem actionOf_ok {s : AgentState} {p : Proposal}
    (h₀ : s.approvalGranted ≠ some true → 0 ≤ p.riskTier)
    (h₂ : 2 ≤ p.riskTier → s.approvalGranted = some true) :
    ∃ action, actionOf s p = .ok action := by
  unfold actionOf
  by_cases hg : s.approvalGranted = some true
  · simp only [hg, BEq.rfl, if_true]
    exact ProposedAction.make_of_bounds (by omega) (by omega) _ _ _ _
  · simp only [beq_eq_false_iff_ne.mpr hg]
    have hlow : ¬ 2 ≤ p.riskTier := fun h => hg (h₂ h)
    exact ProposedAction.make_of_bounds (h₀ hg) (by omega) _ _ _ _

theorem execute_progress (hs : Sound ctx t) (hn : t.next = .node .execute)
    (h : (t', fs) = afterNode .execute t.values metrics (executeNode ctx env t.values)) :
    Crashed t' ∨ Advances ctx t t' := by
  obtain ⟨hdec, hlt, p, hp, -⟩ : AtNode ctx t.values .execute := by
    simpa only [hn, AtNext] using hs.next
  have hrank : rank ctx t = proposalRank ctx t.values - 4 := by rw [rank, hn]; rfl
  have h9 : 9 ≤ proposalRank ctx t.values := by unfold proposalRank; omega
  -- A call uses one of the attempts.
  have hcall : ∀ s' : AgentState, s'.actionAttempts = t.values.actionAttempts + 1 →
      (if s'.executedActions.isEmpty then 3 else proposalRank ctx s' + 1) < rank ctx t := by
    intro s' ha
    rw [hrank]
    unfold proposalRank at *
    rw [ha]
    split <;> omega
  have hx := executeNode_exit ctx env t.values
  generalize executeNode ctx env t.values = run at h hx
  cases hx with
  | refused hr =>
    obtain ⟨rfl, -⟩ := Prod.mk.inj h
    refine .inr ⟨⟨hs.metadata, hs.floatable, hs.context, hdec⟩, ?_⟩
    have hsre : ctx.sreContext = false := by
      rcases hr with hr | hr | hr
      · rw [hp] at hr
        cases hr
      · omega
      · exact hr
    rw [hrank]
    show (if t.values.executedActions.isEmpty then 3 else _) < _
    rw [hs.context hsre]
    show 3 < _
    omega
  | invalid q qs exc _ _ _ =>
    obtain ⟨rfl, -⟩ := Prod.mk.inj h
    exact .inl ⟨exc, rfl⟩
  | returned q qs action r _ _ hsre _ _ =>
    obtain ⟨rfl, -⟩ := Prod.mk.inj h
    exact .inr ⟨⟨hs.metadata, hs.floatable, fun hf => absurd (hsre.symm.trans hf) nofun, hdec⟩,
      hcall _ rfl⟩
  | raised q qs action e _ _ hsre _ _ =>
    obtain ⟨rfl, -⟩ := Prod.mk.inj h
    exact .inr ⟨⟨hs.metadata, hs.floatable, fun hf => absurd (hsre.symm.trans hf) nofun, hdec⟩,
      hcall _ rfl⟩

theorem execute_guarded (hs : Sound ctx t) (hn : t.next = .node .execute) {a : Label}
    (hg : Guarded ctx t a)
    (h : (t', fs) = afterNode .execute t.values metrics (executeNode ctx env t.values)) :
    ¬ Crashed t' := by
  obtain ⟨-, -, p, hp, hgr⟩ : AtNode ctx t.values .execute := by
    simpa only [hn, AtNext] using hs.next
  have hx := executeNode_exit ctx env t.values
  generalize executeNode ctx env t.values = run at h hx
  cases hx with
  | invalid q qs exc hq hsre he =>
    obtain ⟨rfl, -⟩ : p = q ∧ [] = qs := by simpa [hp] using hq
    obtain ⟨action, hok⟩ := actionOf_ok (s := t.values) (p := p)
      (fun hne => hg.tier hn hsre hne p [] hp) hgr
    rw [hok] at he
    cases he
  | refused _ | returned _ _ _ _ _ _ _ _ _ | raised _ _ _ _ _ _ _ _ _ =>
    obtain ⟨rfl, -⟩ := Prod.mk.inj h
    exact not_crashed_node rfl

theorem verify_advances (hs : Sound ctx t) (hn : t.next = .node .verify)
    (h : (t', fs) = afterNode .verify t.values metrics (verifyNode ctx t.values)) :
    Advances ctx t t' := by
  have hdec : Decided t.values := by simpa only [hn, AtNext, AtNode] using hs.next
  have hrank : rank ctx t =
      if t.values.executedActions.isEmpty then 3 else proposalRank ctx t.values + 1 := by
    rw [rank, hn]; rfl
  have hend : 2 < rank ctx t := by
    rw [hrank]
    unfold proposalRank
    split <;> omega
  have hx := verifyNode_exit ctx t.values
  generalize verifyNode ctx t.values = run at h hx
  cases hx with
  | nothing _ | resolved _ _ _ | failed _ _ _ _ =>
    obtain ⟨rfl, -⟩ := Prod.mk.inj h
    exact ⟨⟨hs.metadata, hs.floatable, hs.context, hdec⟩, hend⟩
  | retry last hl _ _ =>
    obtain ⟨rfl, -⟩ := Prod.mk.inj h
    refine ⟨⟨hs.metadata, hs.floatable, hs.context, hdec⟩, ?_⟩
    have hne : t.values.executedActions.isEmpty = false := by
      cases he : t.values.executedActions with
      | nil => simp [he] at hl
      | cons _ _ => rfl
    rw [hrank, hne]
    exact Nat.lt_succ_self _

/-- A decided run ends with a final status. -/
theorem finalStatus_ne_running {s : AgentState} (h : Decided s) : finalStatus s ≠ .running := by
  unfold finalStatus
  split
  · rename_i hr
    simp only [Bool.and_eq_true, Option.isNone_iff_eq_none] at hr
    exact absurd hr.2 (h hr.1)
  · split
    · nofun
    · split <;> nofun

theorem complete_advances (hs : Sound ctx t) (hn : t.next = .node .complete)
    (h : (t', fs) = afterNode .complete t.values metrics (completeNode env metrics t.values)) :
    Advances ctx t t' := by
  have hdec : Decided t.values := by simpa only [hn, AtNext, AtNode] using hs.next
  obtain ⟨_, _, _, _, _, he⟩ := completeNode_eq env t.values metrics
  rw [he] at h
  obtain ⟨rfl, -⟩ := Prod.mk.inj h
  refine ⟨⟨hs.metadata, hs.floatable, hs.context, finalStatus_ne_running hdec⟩, ?_⟩
  rw [rank, rank, hn]
  exact Nat.lt_succ_self 1

/-- A step of a sound thread; only one that is not guarded crashes. -/
theorem step_progress (hs : Sound ctx t) {a : Label} (h : (graph ctx).step t a = some (t', fs)) :
    Advances ctx t t' ∨ (Crashed t' ∧ ¬ Guarded ctx t a) := by
  obtain ⟨p, env, resume, metrics, hstep, ⟨hn, rfl, rfl⟩ | ⟨hn, rfl, decision, rfl⟩⟩ :=
    step_cases h
  · cases p with
    | triage => exact .inl (triage_advances hs hn hstep)
    | investigate =>
      rcases investigate_progress hs hn hstep with hc | ha
      · exact .inr ⟨hc, fun hg => investigate_guarded hn hg hstep hc⟩
      · exact .inl ha
    | hypothesize => exact .inl (hypothesize_advances hs hn hstep)
    | propose =>
      rcases propose_progress hs hn hstep with hc | ha
      · exact .inr ⟨hc, fun hg => propose_guarded hs hn hg hstep hc⟩
      · exact .inl ha
    | approve => exact .inl (approve_advances hs hn hstep)
    | execute =>
      rcases execute_progress hs hn hstep with hc | ha
      · exact .inr ⟨hc, fun hg => execute_guarded hs hn hg hstep hc⟩
      · exact .inl ha
    | verify => exact .inl (verify_advances hs hn hstep)
    | complete => exact .inl (complete_advances hs hn hstep)
  · exact .inl (resume_advances hs hn hstep)

/-- A guarded step of a sound thread. -/
theorem step_advances (hs : Sound ctx t) {a : Label} (hg : Guarded ctx t a)
    (h : (graph ctx).step t a = some (t', fs)) : Advances ctx t t' :=
  (step_progress hs h).resolve_right fun hc => hc.2 hg

theorem sound_init (h : (graph ctx).init t) : Sound ctx t ∧ rank ctx t ≤ stepBound ctx := by
  obtain ⟨metadata, budget, now, hv, hn⟩ := h
  have hn' : t.next = .node .triage := by rw [hn, hv]; rfl
  refine ⟨⟨⟨metadata, by rw [hv]; rfl⟩, hv ▸ floatable_nil, fun _ => by rw [hv]; rfl, ?_⟩, ?_⟩
  · rw [hn', hv]
    rfl
  · rw [rank, hn']
    exact Nat.le_refl _

/-! ## Runs -/

theorem not_crashed_of_step (h : (graph ctx).step t a = some (t', fs)) : ¬ Crashed t := by
  rintro ⟨exc, hc⟩
  obtain ⟨p, env, resume, metrics, -, ⟨hn, -, -⟩ | ⟨hn, -, -⟩⟩ := step_cases h <;>
    rw [hc] at hn <;> cases hn

/-- A sound thread that has a step has a rank. -/
theorem rank_pos (hs : Sound ctx t) (h : (graph ctx).step t a = some (t', fs)) :
    0 < rank ctx t := by
  have hnext := hs.next
  obtain ⟨p, env, resume, metrics, -, ⟨hn, -, -⟩ | ⟨hn, -, -⟩⟩ := step_cases h
  · rw [hn] at hnext
    rw [rank, hn]
    cases p with
    | execute =>
      obtain ⟨-, hlt, -⟩ := hnext
      simp only [rankOf, proposalRank]
      omega
    | approve | verify =>
      simp only [rankOf, proposalRank]
      split <;> omega
    | _ =>
      simp only [rankOf, proposalRank]
      omega
  · rw [hn] at hnext
    obtain ⟨-, hlt, -⟩ := hnext
    rw [rank, hn]
    simp only [rankOf, proposalRank]
    omega

/-- A run is sound unless an exception escaped. -/
theorem sound_run {C : Thread → Label → Prop} {n : Nat} {es : List Event}
    (hr : (graph ctx).Run C n es t) : Crashed t ∨ Sound ctx t := by
  refine hr.stateInv (I := fun t => Crashed t ∨ Sound ctx t) (fun _ hi => .inr (sound_init hi).1)
    fun _ _ _ _ hi _ h => ?_
  rcases step_progress (hi.resolve_left (not_crashed_of_step h)) h with ha | ⟨hc, -⟩
  · exact .inr ha.sound
  · exact .inl hc

/-- The length of every run is bounded. -/
theorem run_length_le {C : Thread → Label → Prop} {n : Nat} {es : List Event}
    (hr : (graph ctx).Run C n es t) : n + rank ctx t ≤ stepBound ctx := by
  refine hr.length_le (I := fun t => Crashed t ∨ Sound ctx t) (rank ctx)
    (fun _ hi => ⟨.inr (sound_init hi).1, (sound_init hi).2⟩) fun s _ s' _ hi _ h => ?_
  have hs := hi.resolve_left (not_crashed_of_step h)
  rcases step_progress hs h with ha | ⟨⟨exc, hc⟩, -⟩
  · exact ⟨.inr ha.sound, ha.rank_lt⟩
  · have hzero : rank ctx s' = 0 := by
      rw [rank, hc]
      rfl
    exact ⟨.inl ⟨exc, hc⟩, hzero ▸ rank_pos hs h⟩

/-- No exception escapes a guarded run. -/
theorem guarded_sound {n : Nat} {es : List Event} (hr : (graph ctx).Run (Guarded ctx) n es t) :
    Sound ctx t :=
  hr.stateInv (fun _ hi => (sound_init hi).1) fun _ _ _ _ hs hg h => (step_advances hs hg h).sound

/-! ## Guarded runs -/

variable (ctx)

/-- No exception escapes, and the run ends with a final status unless it waits for an approval. -/
structure Handled (n : Nat) (es : List Event) (t : Thread) : Prop where
  noEscape : ∀ exc, t.next ≠ .crashed exc
  /-- Its length is bounded. -/
  bounded : n ≤ stepBound ctx
  /-- A run that is neither done nor waits for an approval has a step, in every environment. -/
  continues : t.next ≠ .done → t.next ≠ .paused → ∀ env, ((graph ctx).step t (.run env)).isSome
  /-- A run that is done has executed `complete_node`, and its status is final. -/
  completed : t.next = .done → .node .complete ∈ es ∧ t.values.status ≠ .running

variable {ctx}

/-- Only `complete_node` ends a run. -/
theorem complete_of_step {p : Phase} {resume : Option Json}
    (h : (t', fs) = afterNode p t.values metrics (runNode ctx env resume metrics p t.values))
    (hd : t'.next = .done) : p = .complete := by
  obtain ⟨rfl, -⟩ := Prod.mk.inj h
  simp only [settle] at hd
  split at hd
  · cases p <;> simp [routeAfter] at hd
    rfl
  · cases hd
  · cases hd

/-- What every step of `complete_node` establishes holds when a run is done. -/
theorem of_done {I : List Event → Thread → Prop}
    (hcomplete : ∀ (es : List Event) (s s' : Thread) (fs : List Event) env resume metrics,
      (s', fs) = afterNode .complete s.values metrics
        (runNode ctx env resume metrics .complete s.values) → I (es ++ fs) s')
    {C : Thread → Label → Prop} {n : Nat} {es : List Event} (hr : (graph ctx).Run C n es t) :
    t.next = .done → I es t := by
  refine hr.inv (I := fun es t => t.next = .done → I es t) (fun s hi hd => ?_)
    (fun _ es s a s' fs _ _ _ hs hd => ?_)
  · obtain ⟨metadata, budget, now, -, hn⟩ := hi
    rw [hn] at hd
    cases hd
  · obtain ⟨p, env, resume, metrics, hstep, -⟩ := step_cases hs
    obtain rfl := complete_of_step hstep hd
    exact hcomplete es s s' fs env resume metrics hstep

/-- A run is done only after `complete_node`. -/
theorem complete_of_done {C : Thread → Label → Prop} {n : Nat} {es : List Event}
    (hr : (graph ctx).Run C n es t) : t.next = .done → .node .complete ∈ es := by
  refine of_done (I := fun es _ => .node .complete ∈ es)
    (fun es s s' fs env resume metrics hstep => ?_) hr
  rw [(Prod.mk.inj hstep).2]
  exact List.mem_append_right _ List.mem_cons_self

/-- No exception escapes a node of a guarded run, and the run ends with a final status unless it
waits for an approval. -/
theorem guarded_run_handled {n : Nat} {es : List Event} {t : Thread}
    (hr : (graph ctx).Run (Guarded ctx) n es t) : Handled ctx n es t := by
  have hlen := run_length_le hr
  have hnext := (guarded_sound hr).next
  refine ⟨fun exc hc => ?_, by omega, fun hd hp env => ?_, fun hd => ⟨complete_of_done hr hd, ?_⟩⟩
  · rw [hc] at hnext
    exact hnext
  · show (stepThread ctx t (.run env)).isSome
    cases hn : t.next with
    | node p => simp [stepThread, hn]
    | paused => exact absurd hn hp
    | done => exact absurd hn hd
    | crashed exc =>
      rw [hn] at hnext
      exact hnext.elim
  · rw [hd] at hnext
    exact hnext

end guarded

/-- The proposals that run without a grant have a tier. -/
def checkTier (t : Thread) (_ : Label) : Bool :=
  match t.next with
  | .node .execute => t.values.approvalGranted == some true ||
      t.values.proposedActions.all fun p => decide (0 ≤ p.riskTier)
  | _ => true

/-- With `flush_all` as the only tool the proposals are all there is to guard. -/
theorem flushContext_guarded (t : Thread) (a : Label) (h : checkTier t a = true) :
    Guarded flushContext t a := by
  have hnone : (readOnlyTools flushContext).isEmpty = true := rfl
  refine ⟨fun _ => ⟨[], rfl⟩, fun _ he => ?_, fun _ he => ?_, fun _ => ⟨_, rfl⟩,
    fun hn _ hg p ps hp => ?_⟩
  · simp [hnone] at he
  · simp [hnone] at he
  · simp only [checkTier, hn, beq_eq_false_iff_ne.mpr hg, hp, List.all_cons, Bool.false_or,
      Bool.and_eq_true, decide_eq_true_eq] at h
    exact h.1

theorem guarded_run_handled_flushAll :
    ∃ n es t, (graph flushContext).Run (Guarded flushContext) n es t ∧ t.next = .done ∧
      Handled flushContext n es t := by
  have hexec : (((graph flushContext).restrict checkTier).exec sampleThread
      (flushLabels ++ List.replicate 2 (.run (sampleEnv .null)))).any
      (fun r => r.1.next.isDone) = true := by
    decide +kernel
  obtain ⟨t, es, hr, hc⟩ := Sys.exists_checked_run flushContext_guarded sampleThread_initial hexec
  exact ⟨_, es, t, hr, Next.eq_done hc, guarded_run_handled hr⟩

/-- A negative tier passes `propose_node`, and the action of `execute_node` then raises. -/
theorem negative_tier_escapes :
    ¬ ∀ (ctx : GraphContext) (n : Nat) (es : List Event) (t : Thread),
      (graph ctx).Run Sys.anyStep n es t → Handled ctx n es t := by
  intro hall
  have hexec : ((graph flushContext).exec sampleThread
      (List.replicate 5 (.run (sampleEnv (sampleAnswer "flush_all" (-1)))))).any
      (fun r => match r.1.next with
        | .crashed _ => true
        | _ => false) = true := by
    decide +kernel
  obtain ⟨t, es, hr, hc⟩ := Sys.exists_any_run sampleThread_initial hexec
  split at hc
  · rename_i exc hn
    exact (hall _ _ es t hr).noEscape exc hn
  · cases hc

end Core
end AutoSRE
