import AutoSRE.Core.Graph

/-!
# What each node does

One inversion lemma for each node: the ways it goes (`TriageExit`, `InvestigateExit`, …), each with
what it logs, the update it returns, and what holds then; `runNode_exit` is the one of any node. The
invariants of a run are proved from these, never from the nodes.
-/

namespace AutoSRE
namespace Core

open Lib Py Safety Tools

@[simp] theorem orRaise_ok_bind {α β : Type} (a : α) (f : α → Node β) :
    (orRaise (.ok a) >>= f) = f a := rfl

@[simp] theorem orRaise_error_bind {α β : Type} (exc : PyExc) (f : α → Node β) :
    (orRaise (.error exc) >>= f) = ⟨[], .error (.raised exc)⟩ := rfl

section exits

variable (ctx : GraphContext) (env : NodeEnv) (s : AgentState)

/-- The event of the call of the language model. -/
def llmEvent : Event := .llmCall env.llm.backoffs env.llm.latency

/-! ## Triage -/

/-- The ways of `triage_node`. -/
inductive TriageExit : Node AgentState → Prop
  /-- The category needs no action; the same check after a failed call never holds. -/
  | noAction (usage : Usage) :
      TriageExit ⟨[], .ok { triageUpdate ctx s [] usage with
        currentPhase := .complete, status := .noAction }⟩
  /-- The hypotheses of the answer, or the fallback. -/
  | hypotheses (raw : Json) (usage : Usage) :
      TriageExit ⟨[llmEvent env], .ok { triageUpdate ctx s
        (normalizeHypothesesSafe raw (triageFallback s.incidentMetadata)) usage with
          currentPhase := .investigate }⟩

theorem triageNode_exit : TriageExit ctx env s (triageNode ctx env s) := by
  unfold triageNode logLlmCall
  simp only
  split
  · exact .noAction _
  · rw [Traced.emit_bind]
    cases ha : triageAnswer ctx env s with
    | ok r =>
      obtain ⟨hypotheses, usage⟩ := r
      simp only [triageAnswer] at ha
      split at ha
      · cases ha
      · split at ha
        · cases ha
        · cases ha
          exact .hypotheses _ _
    | error exc => exact .hypotheses .null _

/-! ## Investigate -/

/-- The first tool call that the node selects, if it is an object. -/
def firstCall : Option PyDict := (selectCalls ctx env s).1.head?.bind Json.asDict?

/-- The name of a tool call. -/
def callName (call : PyDict) : Json := PyDict.getD call "name" (.str "")

/-- The update of `investigate_node`. -/
def investigated : AgentState :=
  { s with
    iterationBudget := Max.max 0 (s.iterationBudget - 1)
    iterationCount := s.iterationCount + 1
    currentPhase := .hypothesize }

/-- The ways of the loop over the tool calls. -/
inductive CallsExit (metadata : PyDict) (calls : List Json) : Node (List String) → Prop
  /-- Nothing is called. -/
  | skipped (results : List String) : CallsExit metadata calls ⟨[], .ok results⟩
  /-- The first call is made. -/
  | called (call args : PyDict) (results : List String) :
      calls.head?.bind Json.asDict? = some call → ctx.sreContext = true →
      CallsExit metadata calls ⟨[.toolCall (callName call) args], .ok results⟩
  /-- The name of the first call cannot be looked up. -/
  | unhashable (call : PyDict) (exc : PyExc) :
      calls.head?.bind Json.asDict? = some call → (callName call).hashable = false →
      investigateNamespace metadata ≠ none →
      CallsExit metadata calls ⟨[], .error (.raised exc)⟩

theorem clampNamespaceOf_error {toolArgs : PyDict} {ns : Option String} {name : Json} {exc : PyExc}
    (h : clampNamespaceOf toolArgs ns name = .error exc) :
    name.hashable = false ∧ ns ≠ none := by
  unfold clampNamespaceOf at h
  split at h
  · cases h
  · cases h
  · split at h
    · cases h
    · rename_i hn
      exact ⟨by simpa using hn, by simp⟩

theorem executeCalls_exit (metadata : PyDict) (calls : List Json) :
    CallsExit ctx metadata calls (executeCalls ctx env metadata calls) := by
  cases calls with
  | nil => exact .skipped []
  | cons c rest =>
    show CallsExit ctx metadata (c :: rest) (executeCall ctx env metadata c)
    unfold executeCall
    cases hc : c.asDict? with
    | none => exact .skipped []
    | some call =>
      simp only
      cases ha : clampNamespaceOf (callArgs call) (investigateNamespace metadata)
          (PyDict.getD call "name" (.str "")) with
      | error exc =>
        obtain ⟨hh, hn⟩ := clampNamespaceOf_error ha
        exact .unhashable call exc (by simpa using hc) hh hn
      | ok args =>
        rw [orRaise_ok_bind]
        cases hs : ctx.sreContext with
        | true => exact .called call args _ (by simpa using hc) hs
        | false => exact .skipped _

/-- The ways of `investigate_node`. -/
inductive InvestigateExit : Node AgentState → Prop
  | noTools : (readOnlyTools ctx).isEmpty = true → InvestigateExit ⟨[], .ok (investigated s)⟩
  /-- The schema of a read-only tool raises. -/
  | schema (exc : PyExc) : toolSchemas (readOnlyTools ctx) = .error exc →
      InvestigateExit ⟨[], .error (.raised exc)⟩
  /-- The name of the first call cannot be looked up. -/
  | unhashable (call : PyDict) (exc : PyExc) : firstCall ctx env s = some call →
      (callName call).hashable = false → investigateNamespace s.incidentMetadata ≠ none →
      InvestigateExit ⟨[llmEvent env], .error (.raised exc)⟩
  /-- The evidence of a hypothesis is no sequence. -/
  | evidence (results : List String) (log : List Event) (exc : PyExc) :
      appendAllEvidence results s.hypotheses = .error exc →
      (log = [] ∨ ∃ call args, firstCall ctx env s = some call ∧ ctx.sreContext = true ∧
        log = [.toolCall (callName call) args]) →
      InvestigateExit ⟨llmEvent env :: log, .error (.raised exc)⟩
  /-- Evidence is gathered. -/
  | gathered (results : List String) (hypotheses : List PyDict) (log : List Event) (usage : Usage) :
      appendAllEvidence results s.hypotheses = .ok hypotheses →
      (log = [] ∨ ∃ call args, firstCall ctx env s = some call ∧ ctx.sreContext = true ∧
        log = [.toolCall (callName call) args]) →
      InvestigateExit ⟨llmEvent env :: log, .ok { investigated s with hypotheses, usage }⟩

/-- Without read-only tools nothing is called. -/
theorem investigateNode_log_noTools (h : (readOnlyTools ctx).isEmpty = true) :
    (investigateNode ctx env s).log = [] := by
  simp [investigateNode, h]

theorem investigateNode_exit : InvestigateExit ctx env s (investigateNode ctx env s) := by
  unfold investigateNode logLlmCall
  simp only
  split
  · rename_i he
    exact .noTools he
  · cases hs : toolSchemas (readOnlyTools ctx) with
    | error exc => exact .schema exc hs
    | ok schemas =>
      rw [orRaise_ok_bind, Traced.emit_bind]
      have hx := executeCalls_exit ctx env s.incidentMetadata (selectCalls ctx env s).1
      generalize hrun : executeCalls ctx env s.incidentMetadata (selectCalls ctx env s).1 = run
        at hx
      -- What the evidence does after a loop that logged `log` and returned `results`.
      have hrest : ∀ (results : List String) (log : List Event),
          (log = [] ∨ ∃ call args, firstCall ctx env s = some call ∧ ctx.sreContext = true ∧
            log = [.toolCall (callName call) args]) →
          run = ⟨log, .ok results⟩ →
          InvestigateExit ctx env s
            ⟨llmEvent env :: (run >>= fun results =>
                orRaise (appendAllEvidence results s.hypotheses) >>= fun hypotheses =>
                  pure { investigated s with
                    hypotheses, usage := (selectCalls ctx env s).2 }).log,
              (run >>= fun results =>
                orRaise (appendAllEvidence results s.hypotheses) >>= fun hypotheses =>
                  pure { investigated s with
                    hypotheses, usage := (selectCalls ctx env s).2 }).out⟩ := by
        rintro results log hlog rfl
        rw [Traced.bind_of_ok rfl]
        cases he : appendAllEvidence results s.hypotheses with
        | error exc => simpa using InvestigateExit.evidence results log exc he hlog
        | ok hypotheses => simpa using InvestigateExit.gathered results hypotheses log _ he hlog
      cases hx with
      | skipped results => exact hrest results [] (.inl rfl) rfl
      | called call args results hc hsre =>
        exact hrest results _ (.inr ⟨call, args, hc, hsre, rfl⟩) rfl
      | unhashable call exc hc hh hn => exact .unhashable call exc hc hh hn

/-- What `investigate_node` calls is the first selected call, clamped. -/
theorem executeCalls_call {metadata args : PyDict} {calls : List Json} {v : Json}
    (hm : .toolCall v args ∈ (executeCalls ctx env metadata calls).log) :
    ctx.sreContext = true ∧ ∃ call, calls.head?.bind Json.asDict? = some call ∧
      v = callName call ∧
      clampNamespaceOf (callArgs call) (investigateNamespace metadata) v = .ok args := by
  cases calls with
  | nil => simp [executeCalls] at hm
  | cons c rest =>
    simp only [executeCalls, executeCall] at hm
    split at hm
    · simp at hm
    · rename_i call hc
      cases ha : clampNamespaceOf (callArgs call) (investigateNamespace metadata)
          (callName call) with
      | error exc =>
        unfold callName at ha
        simp [ha] at hm
      | ok args₁ =>
        have ha' := ha
        unfold callName at ha'
        rw [ha', orRaise_ok_bind] at hm
        split at hm
        · rename_i hsre
          obtain ⟨rfl, rfl⟩ : v = callName call ∧ args = args₁ := by
            simpa [callName] using hm
          exact ⟨hsre, call, by simpa using hc, rfl, ha⟩
        · simp at hm

theorem investigateNode_call {args : PyDict} {v : Json}
    (hm : .toolCall v args ∈ (investigateNode ctx env s).log) :
    ctx.sreContext = true ∧ (readOnlyTools ctx).isEmpty = false ∧
      ∃ call, firstCall ctx env s = some call ∧ v = callName call ∧
        clampNamespaceOf (callArgs call) (investigateNamespace s.incidentMetadata) v =
          .ok args := by
  unfold investigateNode logLlmCall at hm
  simp only at hm
  split at hm
  · simp at hm
  · rename_i he
    cases hs : toolSchemas (readOnlyTools ctx) with
    | error exc => simp [hs] at hm
    | ok schemas =>
      rw [hs, orRaise_ok_bind, Traced.emit_bind] at hm
      have hcall : .toolCall v args ∈
          (executeCalls ctx env s.incidentMetadata (selectCalls ctx env s).1).log := by
        generalize executeCalls ctx env s.incidentMetadata (selectCalls ctx env s).1 = run at hm ⊢
        cases ho : run.out with
        | error e => simpa [Traced.bind_of_error ho] using hm
        | ok results =>
          cases he : appendAllEvidence results s.hypotheses with
          | error exc => simpa [Traced.bind_of_ok ho, he] using hm
          | ok hypotheses => simpa [Traced.bind_of_ok ho, he] using hm
      obtain ⟨hsre, call, hc, hv, ha⟩ := executeCalls_call ctx env hcall
      exact ⟨hsre, by simpa using he, call, hc, hv, ha⟩

/-! ## Hypothesize -/

/-- The ways of `hypothesize_node`, with what decides between them. -/
inductive HypothesizeWay : Node AgentState → Prop
  | noHypotheses (usage : Usage) : s.hypotheses = [] →
      HypothesizeWay ⟨[], .ok { s with currentPhase := .complete, status := .failed, usage }⟩
  /-- The confidence of the top hypothesis cannot be read. -/
  | confidence (exc : PyExc) : topConfidence s.hypotheses = .error exc →
      HypothesizeWay ⟨[], .error (.raised exc)⟩
  /-- The confidence is high, or the budget is spent. -/
  | skipped (current : PyFloat) : s.hypotheses ≠ [] → topConfidence s.hypotheses = .ok current →
      ctx.confidenceFastPath.le current = true ∨ s.iterationBudget ≤ 0 →
      HypothesizeWay ⟨[], .ok { s with currentPhase := .propose, lastTopConfidence := current }⟩
  /-- The answer is dropped. -/
  | dropped (current : PyFloat) (exc : PyExc) (usage : Usage) : s.hypotheses ≠ [] →
      topConfidence s.hypotheses = .ok current → ctx.confidenceFastPath.le current = false →
      0 < s.iterationBudget → hypothesizeAnswer ctx env s = .error exc →
      HypothesizeWay ⟨[llmEvent env], .ok { s with
        currentPhase := .propose, lastTopConfidence := current, usage }⟩
  /-- The hypotheses are refined. -/
  | refined (current : PyFloat) (r : Refinement) : s.hypotheses ≠ [] →
      topConfidence s.hypotheses = .ok current → ctx.confidenceFastPath.le current = false →
      0 < s.iterationBudget → hypothesizeAnswer ctx env s = .ok r →
      HypothesizeWay ⟨[llmEvent env], .ok { s with
        hypotheses := r.hypotheses
        currentPhase := if ctx.confidenceFastPath.le r.confidence ||
            decide (ctx.stagnationLimit ≤ r.stagnationCount) then .propose else .investigate
        lastTopConfidence := r.confidence
        stagnationCount := r.stagnationCount
        usage := r.usage }⟩

theorem hypothesizeNode_way : HypothesizeWay ctx env s (hypothesizeNode ctx env s) := by
  unfold hypothesizeNode logLlmCall
  split
  · rename_i he
    exact .noHypotheses _ (by simpa using he)
  · rename_i he
    have hne : s.hypotheses ≠ [] := by simpa using he
    cases hc : topConfidence s.hypotheses with
    | error exc => exact .confidence exc hc
    | ok current =>
      rw [orRaise_ok_bind]
      split
      · rename_i hskip
        exact .skipped current hne hc (by simpa using hskip)
      · rename_i hgo
        simp only [Bool.or_eq_true, decide_eq_true_eq, not_or, Bool.not_eq_true] at hgo
        rw [Traced.emit_bind]
        cases ha : hypothesizeAnswer ctx env s with
        | ok r => exact .refined current r hne hc hgo.1 (by omega) ha
        | error exc => exact .dropped current exc _ hne hc hgo.1 (by omega) ha

/-- The ways of `hypothesize_node`, by what they change. -/
inductive HypothesizeExit : Node AgentState → Prop
  | noHypotheses (usage : Usage) : s.hypotheses = [] →
      HypothesizeExit ⟨[], .ok { s with currentPhase := .complete, status := .failed, usage }⟩
  /-- The confidence of the top hypothesis cannot be read. -/
  | confidence (exc : PyExc) : topConfidence s.hypotheses = .error exc →
      HypothesizeExit ⟨[], .error (.raised exc)⟩
  /-- The confidence is high or the budget is spent, or the answer is dropped. -/
  | kept (log : List Event) (current : PyFloat) (usage : Usage) : s.hypotheses ≠ [] →
      log = [] ∨ log = [llmEvent env] → topConfidence s.hypotheses = .ok current →
      HypothesizeExit ⟨log, .ok { s with
        currentPhase := .propose, lastTopConfidence := current, usage }⟩
  /-- The hypotheses are refined. -/
  | refined (r : Refinement) (phase : Phase) : s.hypotheses ≠ [] →
      hypothesizeAnswer ctx env s = .ok r → phase = .propose ∨ phase = .investigate →
      HypothesizeExit ⟨[llmEvent env], .ok { s with
        hypotheses := r.hypotheses, currentPhase := phase, lastTopConfidence := r.confidence,
        stagnationCount := r.stagnationCount, usage := r.usage }⟩

theorem hypothesizeNode_exit : HypothesizeExit ctx env s (hypothesizeNode ctx env s) := by
  have hw := hypothesizeNode_way ctx env s
  generalize hypothesizeNode ctx env s = run at hw
  cases hw with
  | noHypotheses usage he => exact .noHypotheses usage he
  | confidence exc hc => exact .confidence exc hc
  | skipped current hne hc _ => exact .kept [] current s.usage hne (.inl rfl) hc
  | dropped current exc usage hne hc _ _ _ => exact .kept _ current usage hne (.inr rfl) hc
  | refined current r hne _ _ _ ha =>
    refine .refined r _ hne ha ?_
    split
    · exact .inl rfl
    · exact .inr rfl

/-! ## Propose -/

/-- What the selection of a template is. -/
theorem fallbackSelection_some {metadata : PyDict} {category cause : String} {best : Option PyDict}
    {usage : Usage} {sel : Selection}
    (h : fallbackSelection metadata category cause best usage = some sel) :
    ∃ fb, fallbackActions category = some fb ∧ fb.toolName ≠ "none" ∧
      fb.toolName ∉ forbiddenTools category ∧ sel.toolName = some fb.toolName ∧
      sel.toolArgs = buildFallbackArgs fb metadata ∧ sel.riskTier = fb.riskTier := by
  unfold fallbackSelection at h
  split at h
  · cases h
  · rename_i fb hfb
    split at h
    · cases h
    · rename_i hn
      cases h
      rw [not_or] at hn
      exact ⟨fb, hfb, hn.1, hn.2, rfl, rfl, rfl⟩

/-- The selection names no tool. -/
def Selection.NamesNone (sel : Selection) : Prop := sel.toolName = none ∨ sel.toolName = some "none"

/-- Where a selection is from: the answer, or the template of the category when the answer fails or
names no tool. -/
inductive Selected (confidence : PyFloat) (category : String) (sel : Selection) : Prop
  | answer : proposeAnswer ctx env s confidence category = .ok sel → ¬ sel.NamesNone →
      Selected confidence category sel
  | template (cause : String) (usage : Usage) :
      (∀ sel₀, proposeAnswer ctx env s confidence category = .ok sel₀ → sel₀.NamesNone) →
      fallbackSelection s.incidentMetadata category cause (topHypothesis s.hypotheses) usage =
        some sel → Selected confidence category sel

theorem resolveNone_some {category : String} {sel₀ sel : Selection}
    (h : resolveNone s category (topHypothesis s.hypotheses) sel₀ = some sel) :
    (¬ sel₀.NamesNone ∧ sel = sel₀) ∨ (sel₀.NamesNone ∧
      fallbackSelection s.incidentMetadata category "LLM returned no action"
        (topHypothesis s.hypotheses) sel₀.usage = some sel) := by
  unfold resolveNone at h
  split at h
  · rename_i hn
    exact .inr ⟨.inl hn, h⟩
  · rename_i hn
    exact .inr ⟨.inr hn, h⟩
  · rename_i name hne hn
    cases h
    refine .inl ⟨?_, rfl⟩
    rintro (h | h)
    · simp [hn] at h
    · exact hne (by simpa [hn] using h)

theorem selectAction_ok {confidence : PyFloat} {category : String} {sel : Selection}
    (h : selectAction ctx env s confidence category (topHypothesis s.hypotheses) = .ok sel) :
    Selected ctx env s confidence category sel := by
  unfold selectAction at h
  simp only at h
  cases ha : proposeAnswer ctx env s confidence category with
  | ok sel₀ =>
    simp only [ha] at h
    split at h
    · rename_i sel' hr
      cases h
      rcases resolveNone_some s hr with ⟨hn, rfl⟩ | ⟨hn, hf⟩
      · exact .answer ha hn
      · exact .template _ _ (fun sel₁ h₁ => by rw [ha] at h₁; cases h₁; exact hn) hf
    · cases h
  | error usage =>
    have hfail : ∀ sel₀, proposeAnswer ctx env s confidence category = .ok sel₀ →
        sel₀.NamesNone := fun sel₀ h₀ => by rw [ha] at h₀; cases h₀
    simp only [ha] at h
    cases hf : fallbackSelection s.incidentMetadata category "LLM unavailable or low confidence"
        (topHypothesis s.hypotheses)
        (accumulateNoResponse ctx usage (some env.llm.promptChars)) with
    | none => simp [hf] at h
    | some sel₀ =>
      simp only [hf] at h
      split at h
      · rename_i sel' hr
        cases h
        rcases resolveNone_some s hr with ⟨-, rfl⟩ | ⟨-, hf'⟩
        · exact .template _ _ hfail hf
        · exact .template _ _ hfail hf'
      · cases h

/-- The ways of `propose_node`. -/
inductive ProposeExit : Node AgentState → Prop
  | capped : ctx.maxActionAttempts ≤ s.actionAttempts →
      ProposeExit ⟨[], .ok { s with currentPhase := .complete, status := .failed }⟩
  | noHypotheses : s.hypotheses = [] →
      ProposeExit ⟨[], .ok { s with currentPhase := .complete, status := .noAction }⟩
  /-- The confidence of the top hypothesis cannot be read. -/
  | confidence (exc : PyExc) : topConfidence s.hypotheses = .error exc →
      ProposeExit ⟨[], .error (.raised exc)⟩
  /-- The category cannot be looked up. -/
  | category (exc : PyExc) : proposeCategory s.incidentMetadata = .error exc →
      ProposeExit ⟨[], .error (.raised exc)⟩
  /-- The schema of an eligible tool raises. -/
  | schema (exc : PyExc) : toolSchemas (eligibleTools ctx) = .error exc →
      ProposeExit ⟨[], .error (.raised exc)⟩
  /-- There is nothing to propose. -/
  | nothing (log : List Event) (status : Status) (usage : Usage) :
      log = [] ∨ log = [llmEvent env] → status = .failed ∨ status = .noAction →
      ProposeExit ⟨log, .ok { s with currentPhase := .complete, status, usage }⟩
  /-- A proposal is emitted. -/
  | proposed (confidence : PyFloat) (category : String) (sel : Selection) (name : String)
      (p : Proposal) : s.actionAttempts < ctx.maxActionAttempts → s.hypotheses ≠ [] →
      topConfidence s.hypotheses = .ok confidence →
      proposeCategory s.incidentMetadata = .ok category →
      Selected ctx env s confidence category sel → sel.toolName = some name →
      p = sel.proposal name s.incidentMetadata →
      isActionAlreadyExecuted name sel.toolArgs s.executedActions = false →
      argsSatisfySchema ctx.registry name p.toolArgs = true →
      ProposeExit ⟨[llmEvent env, .proposed p], .ok { s with
        proposedActions := [p], requiresHumanApproval := p.requiresApproval,
        currentPhase := if p.requiresApproval then .approve else .execute,
        usage := sel.usage }⟩

theorem proposeNode_exit : ProposeExit ctx env s (proposeNode ctx env s) := by
  unfold proposeNode logLlmCall
  split
  · rename_i hcap
    exact .capped hcap
  · rename_i hcap
    split
    · rename_i he
      exact .noHypotheses (by simpa using he)
    · rename_i he
      have hne : s.hypotheses ≠ [] := by simpa using he
      cases hc : topConfidence s.hypotheses with
      | error exc => exact .confidence exc hc
      | ok confidence =>
        rw [orRaise_ok_bind]
        cases hcat : proposeCategory s.incidentMetadata with
        | error exc => exact .category exc hcat
        | ok category =>
          rw [orRaise_ok_bind]
          split
          · exact .nothing [] _ _ (.inl rfl) (.inr rfl)
          · cases hs : toolSchemas (eligibleTools ctx) with
            | error exc => exact .schema exc hs
            | ok schemas =>
              rw [orRaise_ok_bind, Traced.emit_bind]
              cases hsel : selectAction ctx env s confidence category
                  (topHypothesis s.hypotheses) with
              | error usage => exact .nothing _ _ _ (.inr rfl) (.inr rfl)
              | ok sel =>
                cases hname : sel.toolName with
                | none =>
                  simp only [hname]
                  exact .nothing _ _ _ (.inr rfl) (.inr rfl)
                | some name =>
                  simp only [hname]
                  unfold checkSelection
                  simp only
                  split
                  · exact .nothing _ _ _ (.inr rfl) (.inr rfl)
                  · rename_i hdup
                    split
                    · exact .nothing _ _ _ (.inr rfl) (.inl rfl)
                    · split
                      · exact .nothing _ _ _ (.inr rfl) (.inr rfl)
                      · rename_i hargs
                        exact .proposed confidence category sel name _ (by omega) hne hc hcat
                          (selectAction_ok ctx env s hsel) hname rfl (by simpa using hdup)
                          (by simpa using hargs)

/-! ## Approve -/

/-- The ways of `approve_node`. -/
inductive ApproveExit (resume : Option Json) : Node AgentState → Prop
  | notRequired : s.requiresHumanApproval = false →
      ApproveExit resume ⟨[], .ok { s with currentPhase := .execute }⟩
  /-- An approval is there already. -/
  | granted : s.requiresHumanApproval = true → s.approvalGranted = some true →
      ApproveExit resume ⟨[], .ok { s with currentPhase := .execute }⟩
  | denied : s.requiresHumanApproval = true → s.approvalGranted = some false →
      ApproveExit resume ⟨[], .ok { s with currentPhase := .complete, status := .noAction }⟩
  /-- The first pass records the time. -/
  | request : s.requiresHumanApproval = true → s.approvalGranted = none →
      s.approvalRequestedAt = none →
      ApproveExit resume ⟨[], .ok { s with
        approvalRequestedAt := some env.now, currentPhase := .approve }⟩
  | noProposals (requestedAt : PyFloat) : s.requiresHumanApproval = true →
      s.approvalGranted = none → s.approvalRequestedAt = some requestedAt →
      s.proposedActions = [] →
      ApproveExit resume ⟨[], .ok { s with currentPhase := .complete, status := .noAction }⟩
  | interrupted (requestedAt : PyFloat) (p : Proposal) (ps : List Proposal) :
      s.requiresHumanApproval = true → s.approvalGranted = none →
      s.approvalRequestedAt = some requestedAt → s.proposedActions = p :: ps → resume = none →
      ApproveExit resume ⟨[.interrupt (interruptPayload s.incidentMetadata p)],
        .error (.interrupted (interruptPayload s.incidentMetadata p))⟩
  | approved (requestedAt wait : PyFloat) (p : Proposal) (ps : List Proposal) (decision : Json) :
      s.requiresHumanApproval = true → s.approvalGranted = none →
      s.approvalRequestedAt = some requestedAt → s.proposedActions = p :: ps →
      resume = some decision → approves decision = true →
      ApproveExit resume ⟨[.resumed decision, .approvalWait wait], .ok { s with
        approvalGranted := some true,
        proposedActions := s.proposedActions.map fun p => { p with requiresApproval := false },
        approvalWaitSeconds := wait.round3, currentPhase := .execute }⟩
  | rejected (requestedAt wait : PyFloat) (p : Proposal) (ps : List Proposal) (decision : Json) :
      s.requiresHumanApproval = true → s.approvalGranted = none →
      s.approvalRequestedAt = some requestedAt → s.proposedActions = p :: ps →
      resume = some decision → approves decision = false →
      ApproveExit resume ⟨[.resumed decision, .approvalWait wait], .ok { s with
        approvalGranted := some false, approvalWaitSeconds := wait.round3,
        currentPhase := .complete, status := .noAction }⟩

theorem approveNode_exit (resume : Option Json) :
    ApproveExit env s resume (approveNode env resume s) := by
  unfold approveNode
  split
  · rename_i hr
    exact .notRequired (by simpa using hr)
  · rename_i hr
    have hreq : s.requiresHumanApproval = true := by simpa using hr
    split
    · rename_i hg
      exact .granted hreq hg
    · rename_i hg
      exact .denied hreq hg
    · rename_i hg
      split
      · rename_i ht
        exact .request hreq hg ht
      · rename_i requestedAt ht
        split
        · rename_i hp
          exact .noProposals requestedAt hreq hg ht hp
        · rename_i p ps hp
          split
          · rename_i decision
            unfold afterResume
            simp only [Traced.emit_bind]
            cases hd : approves decision with
            | true => exact .approved requestedAt _ p ps decision hreq hg ht hp rfl hd
            | false => exact .rejected requestedAt _ p ps decision hreq hg ht hp rfl hd
          · exact .interrupted requestedAt p ps hreq hg ht hp rfl

/-! ## Execute -/

/-- The arguments with which `execute_node` builds the action of a proposal. -/
def actionOf (p : Proposal) : Except PyExc ProposedAction :=
  let alreadyApproved := s.approvalGranted == some true
  ProposedAction.make p.toolName p.toolArgs (if alreadyApproved then 1 else p.riskTier)
    p.rationale (if alreadyApproved then false else p.requiresApproval)

/-- The ways of `execute_node`. -/
inductive ExecuteExit : Node AgentState → Prop
  | refused : s.proposedActions = [] ∨ ctx.maxActionAttempts ≤ s.actionAttempts ∨
        ctx.sreContext = false →
      ExecuteExit ⟨[], .ok { s with currentPhase := .complete, status := .failed }⟩
  /-- The action of the proposal is invalid. -/
  | invalid (p : Proposal) (ps : List Proposal) (exc : PyExc) : s.proposedActions = p :: ps →
      ctx.sreContext = true → actionOf s p = .error exc →
      ExecuteExit ⟨[], .error (.raised exc)⟩
  /-- The executor returned. -/
  | returned (p : Proposal) (ps : List Proposal) (action : ProposedAction) (r : ExecutionResult) :
      s.proposedActions = p :: ps → s.actionAttempts < ctx.maxActionAttempts →
      ctx.sreContext = true → actionOf s p = .ok action →
      (ctx.executor.execute env.handlers none action).out = .ok r →
      ExecuteExit ⟨.executorCall action ::
          (ctx.executor.execute env.handlers none action).log.map .executor, .ok { s with
        executedActions := s.executedActions ++ [executedAction env p r],
        actionAttempts := s.actionAttempts + 1,
        currentPhase := if (executedAction env p r).success then .verify else .propose }⟩
  /-- The executor raised. -/
  | raised (p : Proposal) (ps : List Proposal) (action : ProposedAction) (e : ExecError) :
      s.proposedActions = p :: ps → s.actionAttempts < ctx.maxActionAttempts →
      ctx.sreContext = true → actionOf s p = .ok action →
      (ctx.executor.execute env.handlers none action).out = .error e →
      ExecuteExit ⟨.executorCall action ::
          (ctx.executor.execute env.handlers none action).log.map .executor, .ok { s with
        actionAttempts := s.actionAttempts + 1, currentPhase := .propose }⟩

theorem executeNode_exit : ExecuteExit ctx env s (executeNode ctx env s) := by
  unfold executeNode
  split
  · rename_i hp
    exact .refused (.inl hp)
  · rename_i p ps hp
    split
    · rename_i hr
      simp only [Bool.or_eq_true, decide_eq_true_eq, Bool.not_eq_true'] at hr
      exact .refused (.inr hr)
    · rename_i hr
      simp only [Bool.or_eq_true, decide_eq_true_eq, Bool.not_eq_true', not_or,
        Bool.not_eq_false] at hr
      cases ha : actionOf s p with
      | error exc =>
        have ha' := ha
        unfold actionOf at ha'
        simp only at ha' ⊢
        rw [ha', orRaise_error_bind]
        exact .invalid p ps exc hp hr.2 ha
      | ok action =>
        have ha' := ha
        unfold actionOf at ha'
        simp only at ha' ⊢
        rw [ha', orRaise_ok_bind]
        unfold callExecutor
        rw [Traced.bind_of_ok rfl]
        cases ho : (ctx.executor.execute env.handlers none action).out with
        | ok r =>
          simpa using ExecuteExit.returned p ps action r hp (by omega) hr.2 ha ho
        | error e =>
          simpa using ExecuteExit.raised p ps action e hp (by omega) hr.2 ha ho

/-! ## Verify and complete -/

/-- The last action passed its verification, or succeeded without one. -/
def ExecutedAction.verified (a : ExecutedAction) : Bool :=
  a.verificationPassed == some true || (a.verificationPassed.isNone && a.success)

/-- The ways of `verify_node`. -/
inductive VerifyExit : Node AgentState → Prop
  | nothing : s.executedActions = [] →
      VerifyExit ⟨[], .ok { s with currentPhase := .complete, status := .failed }⟩
  | resolved (last : ExecutedAction) : s.executedActions.getLast? = some last →
      last.verified = true →
      VerifyExit ⟨[], .ok { s with currentPhase := .complete, status := .resolved }⟩
  | failed (last : ExecutedAction) : s.executedActions.getLast? = some last →
      last.verified = false → ctx.maxActionAttempts ≤ s.actionAttempts →
      VerifyExit ⟨[], .ok { s with currentPhase := .complete, status := .failed }⟩
  | retry (last : ExecutedAction) : s.executedActions.getLast? = some last →
      last.verified = false → s.actionAttempts < ctx.maxActionAttempts →
      VerifyExit ⟨[], .ok { s with currentPhase := .propose }⟩

theorem verifyNode_exit : VerifyExit ctx s (verifyNode ctx s) := by
  unfold verifyNode
  split
  · rename_i he
    exact .nothing (List.getLast?_eq_none_iff.mp he)
  · rename_i last hl
    have hretry : last.verified = false → VerifyExit ctx s (pure (retryOrFail ctx s)) := by
      intro hv
      unfold retryOrFail
      split
      · rename_i hm
        exact .failed last hl hv hm
      · exact .retry last hl hv (by omega)
    split
    · rename_i hv
      exact .resolved last hl (by simp [ExecutedAction.verified, hv])
    · rename_i hv
      exact hretry (by simp [ExecutedAction.verified, hv])
    · rename_i hv
      split
      · rename_i hs
        exact .resolved last hl (by simp [ExecutedAction.verified, hv, hs])
      · rename_i hs
        exact hretry (by simpa [ExecutedAction.verified, hv] using hs)

/-- `complete_node` writes the final status and the timing. -/
theorem completeNode_eq (metrics : Option RunMetrics) :
    ∃ wall backoff wait latency active, completeNode env metrics s = ⟨[], .ok { s with
      currentPhase := .complete, status := finalStatus s, wallClockSeconds := wall,
      backoffSeconds := backoff, approvalWaitSeconds := wait, llmLatencySeconds := latency,
      activeSeconds := active }⟩ :=
  ⟨_, _, _, _, _, rfl⟩

/-! ## Any node -/

/-- The ways of the node `p`. -/
def NodeExit (resume : Option Json) (metrics : Option RunMetrics) :
    Phase → Node AgentState → Prop
  | .triage => TriageExit ctx env s
  | .investigate => InvestigateExit ctx env s
  | .hypothesize => HypothesizeWay ctx env s
  | .propose => ProposeExit ctx env s
  | .approve => ApproveExit env s resume
  | .execute => ExecuteExit ctx env s
  | .verify => VerifyExit ctx s
  | .complete => fun run => run = completeNode env metrics s

/-- A node goes one of its ways. -/
theorem runNode_exit (resume : Option Json) (metrics : Option RunMetrics) (p : Phase) :
    NodeExit ctx env s resume metrics p (runNode ctx env resume metrics p s) := by
  cases p with
  | triage => exact triageNode_exit ctx env s
  | investigate => exact investigateNode_exit ctx env s
  | hypothesize => exact hypothesizeNode_way ctx env s
  | propose => exact proposeNode_exit ctx env s
  | approve => exact approveNode_exit env s resume
  | execute => exact executeNode_exit ctx env s
  | verify => exact verifyNode_exit ctx s
  | complete => exact rfl

end exits

end Core
end AutoSRE
