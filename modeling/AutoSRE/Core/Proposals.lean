import AutoSRE.Core.Repeats

/-!
# What `propose_node` proposes

- **The postcondition** (`ProposalPost`). A proposal is of a registered tool at tier 1 or 2 that the
  category allows, its arguments validate and it is not recorded; without a proposal the node routes
  to `complete` and keeps `proposed_actions`.
- **The candidate** (`Candidate`). The call that is checked: of the answer, or of the template of
  the category when no answer can be used. It is proposed when the checks accept it
  (`proposeNode_of_accepted`).
- **When it holds** (`Eligible`). Neither the tier of the registry nor the arguments after the
  namespace is enforced are among the checks (`proposal_post_iff`): a read-only tool that an answer
  names is proposed (`read_only_tool_proposed`).
-/

namespace AutoSRE
namespace Core

open Lib Py Safety Tools

section post

variable (ctx : GraphContext) (s : AgentState)

/-- The tool is registered at tier 1 or 2. -/
def Remediates (name : String) : Prop :=
  ∃ tool, ctx.registry.get name = .ok tool ∧ 1 ≤ tool.riskTier ∧ tool.riskTier ≤ 2

/-- What holds of a proposal. -/
structure ProperProposal (p : Proposal) : Prop where
  remediates : Remediates ctx p.toolName
  allowed : ∀ category, proposeCategory s.incidentMetadata = .ok category →
    p.toolName ∉ forbiddenTools category
  /-- The arguments that are emitted validate. -/
  validates : ∀ tool, ctx.registry.get p.toolName = .ok tool →
    tool.inputModel.validate p.toolArgs = .ok ()
  fresh : isActionAlreadyExecuted p.toolName p.toolArgs s.executedActions = false

/-- The postcondition of `propose_node`. -/
structure ProposalPost (run : Node AgentState) : Prop where
  proposed : ∀ p, .proposed p ∈ run.log → ProperProposal ctx s p ∧
    ∃ s', run.out = .ok s' ∧ s'.proposedActions = [p]
  /-- Without a proposal the node routes to `complete`. -/
  nothing : (∀ p, .proposed p ∉ run.log) → ∃ s', run.out = .ok s' ∧
    routeAfter .propose s' = .node .complete ∧ s'.proposedActions = s.proposedActions

end post

/-! ## The candidate -/

section candidate

variable (ctx : GraphContext) (env : NodeEnv) (s : AgentState)

/-- The node calls the language model: attempts and hypotheses are left, and the category needs an
action. -/
structure Asks (confidence : PyFloat) (category : String) : Prop where
  attempts : s.actionAttempts < ctx.maxActionAttempts
  hypotheses : s.hypotheses ≠ []
  confidence_ok : topConfidence s.hypotheses = .ok confidence
  category_ok : proposeCategory s.incidentMetadata = .ok category
  action : noActionCategory category = false

/-- The call that the answer names; or the call of the category's template, when no answer can be
used and the category allows it. -/
inductive Candidate (confidence : PyFloat) (category name : String) (args : PyDict) : Prop
  | answer (parsed : PyDict) : Answered ctx env s confidence category parsed name →
      args = answerArgs (some name) parsed → Candidate confidence category name args
  | template (fb : FallbackAction) :
      (¬ ∃ parsed name, Answered ctx env s confidence category parsed name) →
      fallbackActions category = some fb → fb.toolName ≠ "none" →
      fb.toolName ∉ forbiddenTools category → name = fb.toolName →
      args = buildFallbackArgs fb s.incidentMetadata → Candidate confidence category name args

/-- The checks accept a call. -/
structure Accepted (name : String) (args : PyDict) : Prop where
  fresh : isActionAlreadyExecuted name args s.executedActions = false
  attempts : ¬ (2 ≤ countActionAttempts name s.executedActions ∧ name ∈ mutatingTools)
  schema : argsSatisfySchema ctx.registry name
    (clampNamespace args (proposeNamespace s.incidentMetadata) name) = true

/-- The incident's namespace turns the call into a recorded one: the tool takes a namespace, and it
is not compared by its name alone. -/
structure ClampRepeats (name : String) (args : PyDict) : Prop where
  takes : name ∈ toolsWithNamespace
  byArgs : name ∉ mutatingTools
  recorded : ∃ ns, proposeNamespace s.incidentMetadata = some ns ∧ ∃ r ∈ s.executedActions,
    r.toolName = name ∧
      Json.pyEq (.obj r.toolArgs) (.obj (PyDict.set args "namespace" (.str ns))) = true

/-- When the node asks, the tools that it offers have schemas; and an accepted candidate is of a
tool at tier 1 or 2, and no recorded call in the namespace of the incident. -/
structure Eligible : Prop where
  schemas : ∀ confidence category, Asks ctx s confidence category →
    ∀ tool ∈ eligibleTools ctx, ∃ schema, tool.inputModel.schema = .ok schema
  candidate : ∀ confidence category name args, Asks ctx s confidence category →
    Candidate ctx env s confidence category name args → Accepted ctx s name args →
    Remediates ctx name ∧ ¬ ClampRepeats s name args

variable {ctx env s}

theorem candidate_of_selected {confidence : PyFloat} {category name : String} {sel : Selection}
    (h : Selected ctx env s confidence category sel) (hname : sel.toolName = some name) :
    Candidate ctx env s confidence category name sel.toolArgs := by
  cases h with
  | answer ha hn =>
    obtain ⟨parsed, han, hargs, -⟩ := answered_of_proposeAnswer ha hn hname
    exact .answer parsed han hargs
  | template cause usage hfail hf =>
    obtain ⟨fb, hfb, hnone, hallowed, hn, hargs, -⟩ := fallbackSelection_some hf
    obtain rfl : fb.toolName = name := by simpa [hn] using hname
    refine .template fb ?_ hfb hnone hallowed rfl hargs
    rintro ⟨parsed, name', han⟩
    obtain ⟨sel₀, hs, hne⟩ := proposeAnswer_of_answered han
    exact hne (hfail sel₀ hs)

/-- The category allows a candidate. -/
theorem Candidate.allowed {confidence : PyFloat} {category name : String} {args : PyDict}
    (h : Candidate ctx env s confidence category name args) : name ∉ forbiddenTools category := by
  cases h with
  | answer parsed han _ =>
    have hkept := han.kept
    simp only [dropped, Bool.or_eq_false_iff, decide_eq_false_iff_not] at hkept
    exact hkept.2
  | template fb _ _ _ hallowed hname _ => exact hname ▸ hallowed

/-- The selection of a template that is neither `none` nor forbidden. -/
theorem fallbackSelection_of (metadata : PyDict) (cause : String) (best : Option PyDict)
    (usage : Usage) {category : String} {fb : FallbackAction}
    (hfb : fallbackActions category = some fb) (hnone : fb.toolName ≠ "none")
    (hallowed : fb.toolName ∉ forbiddenTools category) :
    ∃ sel, fallbackSelection metadata category cause best usage = some sel ∧
      sel.toolName = some fb.toolName ∧ sel.toolArgs = buildFallbackArgs fb metadata := by
  unfold fallbackSelection
  rw [hfb]
  simp only [hnone, hallowed, or_self, if_false]
  exact ⟨_, rfl, rfl, rfl⟩

/-- The node selects the candidate. -/
theorem selectAction_of_candidate {confidence : PyFloat} {category name : String} {args : PyDict}
    (h : Candidate ctx env s confidence category name args) :
    ∃ sel, selectAction ctx env s confidence category (topHypothesis s.hypotheses) = .ok sel ∧
      sel.toolName = some name ∧ sel.toolArgs = args := by
  have hresolve : ∀ {sel : Selection}, sel.toolName = some name → name ≠ "none" →
      resolveNone s category (topHypothesis s.hypotheses) sel = some sel := by
    intro sel hname hne
    unfold resolveNone
    rw [hname]
    split
    · rename_i hn
      cases hn
    · rename_i hn
      exact absurd (Option.some.inj hn) hne
    · rfl
  cases h with
  | answer parsed han hargs =>
    obtain ⟨r, usage, hp, hu⟩ := han.response
    have hname : (llmSelection parsed usage).toolName = some name := han.named
    have hsel : proposeAnswer ctx env s confidence category = .ok (llmSelection parsed usage) := by
      simp [proposeAnswer, hp, hu, hname, han.kept]
    refine ⟨llmSelection parsed usage, ?_, hname, ?_⟩
    · simp only [selectAction, hsel, hresolve hname han.ne_none]
    · show answerArgs (coerceToolName (PyDict.get? parsed "tool_name")) parsed = args
      rw [han.named, hargs]
  | template fb hno hfb hnone hallowed hname hargs =>
    subst hname hargs
    unfold selectAction
    cases ha : proposeAnswer ctx env s confidence category with
    | error usage =>
      obtain ⟨sel, hf, hn, hargs⟩ := fallbackSelection_of s.incidentMetadata
        "LLM unavailable or low confidence" (topHypothesis s.hypotheses)
        (accumulateNoResponse ctx usage (some env.llm.promptChars)) hfb hnone hallowed
      exact ⟨sel, by simp only [hf, hresolve hn hnone], hn, hargs⟩
    | ok sel₀ =>
      -- An answer that is not used names no tool.
      have hnn : sel₀.NamesNone := by
        by_cases hnn : sel₀.NamesNone
        · exact hnn
        · cases hs : sel₀.toolName with
          | none => exact .inl hs
          | some name =>
            obtain ⟨parsed, han, -⟩ := answered_of_proposeAnswer ha hnn hs
            exact absurd ⟨parsed, name, han⟩ hno
      obtain ⟨sel, hf, hn, hargs⟩ := fallbackSelection_of s.incidentMetadata
        "LLM returned no action" (topHypothesis s.hypotheses) sel₀.usage hfb hnone hallowed
      refine ⟨sel, ?_, hn, hargs⟩
      rcases hnn with hnn | hnn <;> simp only [resolveNone, hnn, hf]

end candidate

/-! ## The postcondition -/

variable {ctx : GraphContext} {env : NodeEnv} {s : AgentState}

theorem toolSchemas_ok {tools : List Tool} {schemas : List InputSchema}
    (h : toolSchemas tools = .ok schemas) :
    ∀ tool ∈ tools, ∃ schema, tool.inputModel.schema = .ok schema := by
  induction tools generalizing schemas with
  | nil => simp
  | cons tool tools ih =>
    unfold toolSchemas at h
    split at h
    · cases h
    · rename_i schema hs
      cases hts : toolSchemas tools with
      | error exc => simp [hts, Except.map] at h
      | ok rest =>
        intro tool' hm
        rcases List.mem_cons.mp hm with rfl | hm
        · exact ⟨schema, hs⟩
        · exact ih hts tool' hm

theorem toolSchemas_of {tools : List Tool}
    (h : ∀ tool ∈ tools, ∃ schema, tool.inputModel.schema = .ok schema) :
    ∃ schemas, toolSchemas tools = .ok schemas := by
  induction tools with
  | nil => exact ⟨[], rfl⟩
  | cons tool tools ih =>
    obtain ⟨schema, hs⟩ := h tool List.mem_cons_self
    obtain ⟨schemas, hss⟩ := ih fun tool' hm => h tool' (List.mem_cons_of_mem _ hm)
    exact ⟨schema :: schemas, by simp [toolSchemas, hs, hss, Except.map]⟩

/-- The schema guard passes for a registered tool whose input model validates the arguments. -/
theorem argsSatisfySchema_iff {r : ToolRegistry} {name : String} {args : PyDict} :
    argsSatisfySchema r name args = true ↔
      ∃ tool, r.get name = .ok tool ∧ tool.inputModel.validate args = .ok () := by
  unfold argsSatisfySchema
  cases hget : r.get name with
  | error exc => simp
  | ok tool => cases hv : tool.inputModel.validate args <;> simp [hv]

theorem registered_ne {r : ToolRegistry} {name : String} {tool : Tool}
    (h : r.get name = .ok tool) : name ≠ "" := by
  obtain ⟨-, rfl⟩ := ToolRegistry.get_ok h
  intro he
  have hok := tool.name_ok
  simp [toolNameOk, he] at hok

/-- A call that is not recorded is recorded after the namespace is enforced exactly when
`ClampRepeats` holds. -/
theorem clamped_executed_iff {name : String} {args : PyDict} (hne : name ≠ "")
    (hfresh : isActionAlreadyExecuted name args s.executedActions = false) :
    isActionAlreadyExecuted name (clampNamespace args (proposeNamespace s.incidentMetadata) name)
      s.executedActions = true ↔ ClampRepeats s name args := by
  unfold clampNamespace
  cases hns : proposeNamespace s.incidentMetadata with
  | none =>
    simp only [hfresh, Bool.false_eq_true, false_iff]
    rintro ⟨-, -, ns, h, -⟩
    rw [hns] at h
    cases h
  | some ns =>
    simp only
    split
    · rename_i htakes
      constructor
      · intro hdup
        simp only [isActionAlreadyExecuted, if_neg hne, List.any_eq_true, Bool.and_eq_true,
          beq_iff_eq, Bool.or_eq_true, decide_eq_true_eq] at hdup
        obtain ⟨r, hr, hname, hcase⟩ := hdup
        obtain ⟨hmut, -⟩ := not_executed hne hfresh r hr hname
        exact ⟨htakes, hmut, ns, hns, r, hr, hname, hcase.resolve_left hmut⟩
      · rintro ⟨-, -, ns', hns', r, hr, hname, heq⟩
        obtain rfl := Option.some.inj (hns.symm.trans hns')
        simp only [isActionAlreadyExecuted, if_neg hne, List.any_eq_true, Bool.and_eq_true,
          beq_iff_eq, Bool.or_eq_true, decide_eq_true_eq]
        exact ⟨r, hr, hname, .inr heq⟩
    · rename_i htakes
      simp only [hfresh, Bool.false_eq_true, false_iff]
      exact fun h => htakes h.takes

/-- The node ends at `complete` without a proposal, after it logged `log`. -/
def EndsWithout (s : AgentState) (log : List Event) (run : Node AgentState) : Prop :=
  ∃ status usage, run = ⟨log, .ok { s with currentPhase := .complete, status, usage }⟩

section ways

variable (ctx env s)

/-- The ways of the node, once the confidence and the category are read. -/
inductive AskExit (confidence : PyFloat) (category : String) : Node AgentState → Prop
  | ended {run : Node AgentState} : ¬ Asks ctx s confidence category → EndsWithout s [] run →
      AskExit confidence category run
  | schema (exc : PyExc) : Asks ctx s confidence category →
      toolSchemas (eligibleTools ctx) = .error exc →
      AskExit confidence category ⟨[], .error (.raised exc)⟩
  /-- No tool is selected. -/
  | nothing {run : Node AgentState} (schemas : List InputSchema) :
      Asks ctx s confidence category → toolSchemas (eligibleTools ctx) = .ok schemas →
      (∀ sel name, selectAction ctx env s confidence category (topHypothesis s.hypotheses) =
        .ok sel → sel.toolName ≠ some name) → EndsWithout s [llmEvent env] run →
      AskExit confidence category run
  | checked (schemas : List InputSchema) (sel : Selection) (name : String) :
      Asks ctx s confidence category → toolSchemas (eligibleTools ctx) = .ok schemas →
      selectAction ctx env s confidence category (topHypothesis s.hypotheses) = .ok sel →
      sel.toolName = some name →
      AskExit confidence category ⟨llmEvent env :: (checkSelection ctx s sel name).log,
        (checkSelection ctx s sel name).out⟩

theorem proposeNode_ask {confidence : PyFloat} {category : String}
    (hc : topConfidence s.hypotheses = .ok confidence)
    (hcat : proposeCategory s.incidentMetadata = .ok category) :
    AskExit ctx env s confidence category (proposeNode ctx env s) := by
  unfold proposeNode logLlmCall
  split
  · rename_i hcap
    exact .ended (fun ha => by have := ha.attempts; omega) ⟨_, _, rfl⟩
  · rename_i hcap
    split
    · rename_i he
      exact .ended (fun ha => ha.hypotheses (by simpa using he)) ⟨_, _, rfl⟩
    · rename_i he
      rw [hc, orRaise_ok_bind, hcat, orRaise_ok_bind]
      split
      · rename_i hno
        exact .ended (fun ha => by rw [ha.action] at hno; cases hno) ⟨_, _, rfl⟩
      · rename_i hno
        have hasks : Asks ctx s confidence category :=
          ⟨by omega, by simpa using he, hc, hcat, by simpa using hno⟩
        cases hs : toolSchemas (eligibleTools ctx) with
        | error exc => exact .schema exc hasks hs
        | ok schemas =>
          rw [orRaise_ok_bind, Traced.emit_bind]
          cases hsel : selectAction ctx env s confidence category (topHypothesis s.hypotheses) with
          | error usage =>
            refine .nothing schemas hasks hs (fun sel name h => ?_) ⟨_, _, rfl⟩
            rw [hsel] at h
            cases h
          | ok sel =>
            cases hname : sel.toolName with
            | none =>
              simp only [hname]
              refine .nothing schemas hasks hs (fun sel' name h => ?_) ⟨_, _, rfl⟩
              obtain rfl := Except.ok.inj (hsel.symm.trans h)
              simp [hname]
            | some name =>
              simp only [hname]
              exact .checked schemas sel name hasks hs hsel hname

/-- The checks accept the selection, which is proposed; or the node ends without a proposal. -/
theorem checkSelection_cases (sel : Selection) (name : String) :
    (Accepted ctx s name sel.toolArgs ∧
      (checkSelection ctx s sel name).log = [.proposed (sel.proposal name s.incidentMetadata)] ∧
      ∃ s', (checkSelection ctx s sel name).out = .ok s' ∧
        s'.proposedActions = [sel.proposal name s.incidentMetadata]) ∨
    (¬ Accepted ctx s name sel.toolArgs ∧ EndsWithout s [] (checkSelection ctx s sel name)) := by
  unfold checkSelection
  simp only
  split
  · rename_i hdup
    refine .inr ⟨fun ha => ?_, _, _, rfl⟩
    rw [ha.fresh] at hdup
    cases hdup
  · rename_i hdup
    split
    · rename_i hcap
      exact .inr ⟨fun ha => ha.attempts hcap, _, _, rfl⟩
    · rename_i hcap
      split
      · rename_i hschema
        refine .inr ⟨fun ha => ?_, _, _, rfl⟩
        have hok : argsSatisfySchema ctx.registry name
          (sel.proposal name s.incidentMetadata).toolArgs = true := ha.schema
        simp [hok] at hschema
      · rename_i hschema
        have hok : argsSatisfySchema ctx.registry name
          (sel.proposal name s.incidentMetadata).toolArgs = true := by simpa using hschema
        exact .inl ⟨⟨by simpa using hdup, hcap, hok⟩, rfl, _, rfl, rfl⟩

end ways

/-- What is proposed is an accepted candidate, with the namespace of the incident. -/
theorem accepted_of_proposed {p : Proposal} {confidence : PyFloat} {category : String}
    (hc : topConfidence s.hypotheses = .ok confidence)
    (hcat : proposeCategory s.incidentMetadata = .ok category)
    (hm : .proposed p ∈ (proposeNode ctx env s).log) :
    Asks ctx s confidence category ∧
      (∃ s', (proposeNode ctx env s).out = .ok s' ∧ s'.proposedActions = [p]) ∧
      ∃ args, Candidate ctx env s confidence category p.toolName args ∧
        Accepted ctx s p.toolName args ∧
        p.toolArgs = clampNamespace args (proposeNamespace s.incidentMetadata) p.toolName := by
  have hx := proposeNode_ask ctx env s hc hcat
  generalize proposeNode ctx env s = run at hx hm
  cases hx with
  | ended _ he | nothing _ _ _ _ he =>
    obtain ⟨status, usage, rfl⟩ := he
    simp [llmEvent] at hm
  | schema exc _ _ => simp at hm
  | checked _ sel name hasks _ hsel hname =>
    rcases checkSelection_cases ctx s sel name with ⟨hacc, hlog, ho⟩ | ⟨-, he⟩
    · obtain rfl : p = sel.proposal name s.incidentMetadata := by
        simpa [hlog, llmEvent] using hm
      exact ⟨hasks, ho, sel.toolArgs,
        candidate_of_selected (selectAction_ok ctx env s hsel) hname, hacc, rfl⟩
    · obtain ⟨status, usage, he⟩ := he
      simp [he, llmEvent] at hm

/-- An accepted candidate is proposed. -/
theorem proposeNode_of_accepted {confidence : PyFloat} {category name : String} {args : PyDict}
    (hasks : Asks ctx s confidence category)
    (hschemas : ∀ tool ∈ eligibleTools ctx, ∃ schema, tool.inputModel.schema = .ok schema)
    (hcand : Candidate ctx env s confidence category name args) (hacc : Accepted ctx s name args) :
    ∃ p, .proposed p ∈ (proposeNode ctx env s).log ∧ p.toolName = name ∧
      p.toolArgs = clampNamespace args (proposeNamespace s.incidentMetadata) name := by
  obtain ⟨schemas, hs⟩ := toolSchemas_of hschemas
  obtain ⟨sel, hsel, hname, rfl⟩ := selectAction_of_candidate hcand
  have hx := proposeNode_ask ctx env s hasks.confidence_ok hasks.category_ok
  generalize proposeNode ctx env s = run at hx
  cases hx with
  | ended hno _ => exact absurd hasks hno
  | schema exc _ he =>
    rw [hs] at he
    cases he
  | nothing _ _ _ hno _ => exact absurd hname (hno sel name hsel)
  | checked _ sel' name' _ _ hsel' hname' =>
    obtain rfl := Except.ok.inj (hsel.symm.trans hsel')
    obtain rfl := Option.some.inj (hname.symm.trans hname')
    rcases checkSelection_cases ctx s sel name with ⟨-, hlog, -⟩ | ⟨hno, -⟩
    · exact ⟨sel.proposal name s.incidentMetadata, by simp [hlog], rfl, rfl⟩
    · exact absurd hacc hno

/-- In every state that a run reaches, the postcondition holds exactly when the candidate is
eligible. -/
theorem proposal_post_iff {n : Nat} {es : List Event} {t : Thread}
    (hr : (graph ctx).Run Sys.anyStep n es t) (hn : t.next = .node .propose) (env : NodeEnv) :
    ProposalPost ctx t.values (proposeNode ctx env t.values) ↔ Eligible ctx env t.values := by
  have hsound : Sound ctx t := (sound_run hr).resolve_left (not_crashed_node hn)
  obtain ⟨confidence, hc⟩ := hsound.floatable
  obtain ⟨m, hm⟩ := hsound.metadata
  obtain ⟨category, hcat⟩ := proposeCategory_modelDump m
  rw [← hm] at hcat
  constructor
  · intro hpost
    have hschemas : ∀ confidence category, Asks ctx t.values confidence category →
        ∀ tool ∈ eligibleTools ctx, ∃ schema, tool.inputModel.schema = .ok schema := by
      intro confidence category hasks
      have hx := proposeNode_ask ctx env t.values hasks.confidence_ok hasks.category_ok
      generalize proposeNode ctx env t.values = run at hx hpost
      cases hx with
      | ended hno _ => exact absurd hasks hno
      | schema exc _ _ =>
        obtain ⟨s', ho, -⟩ := hpost.nothing fun p hm => by simp at hm
        cases ho
      | nothing _ _ hs _ _ | checked _ _ _ _ hs _ _ => exact toolSchemas_ok hs
    refine ⟨hschemas, fun confidence category name args hasks hcand hacc => ?_⟩
    obtain ⟨p, hm, rfl, hargs⟩ :=
      proposeNode_of_accepted hasks (hschemas confidence category hasks) hcand hacc
    obtain ⟨hproper, -⟩ := hpost.proposed p hm
    obtain ⟨tool, hget, -⟩ := hproper.remediates
    refine ⟨hproper.remediates, fun hrep => ?_⟩
    have hdup := (clamped_executed_iff (registered_ne hget) hacc.fresh).mpr hrep
    rw [← hargs, hproper.fresh] at hdup
    cases hdup
  · intro hel
    refine ⟨fun p hp => ?_, fun hno => ?_⟩
    · obtain ⟨hasks, ho, args, hcand, hacc, hargs⟩ := accepted_of_proposed hc hcat hp
      obtain ⟨hrem, hrep⟩ := hel.candidate confidence category _ args hasks hcand hacc
      obtain ⟨tool, hget, hvalid⟩ := argsSatisfySchema_iff.mp hacc.schema
      refine ⟨⟨hrem, fun category' hcat' => ?_, fun tool' hget' => ?_, ?_⟩, ho⟩
      · obtain rfl := Except.ok.inj (hcat.symm.trans hcat')
        exact hcand.allowed
      · obtain rfl := Except.ok.inj (hget.symm.trans hget')
        rw [hargs]
        exact hvalid
      · rw [hargs, Bool.eq_false_iff]
        exact fun hdup => hrep ((clamped_executed_iff (registered_ne hget) hacc.fresh).mp hdup)
    · have hx := proposeNode_ask ctx env t.values hc hcat
      generalize proposeNode ctx env t.values = run at hx hno
      cases hx with
      | ended _ he | nothing _ _ _ _ he =>
        obtain ⟨status, usage, rfl⟩ := he
        exact ⟨_, rfl, rfl, rfl⟩
      | schema exc hasks he =>
        obtain ⟨schemas, hs⟩ := toolSchemas_of (hel.schemas confidence category hasks)
        rw [hs] at he
        cases he
      | checked _ sel name hasks _ hsel hname =>
        rcases checkSelection_cases ctx t.values sel name with ⟨-, hlog, -⟩ | ⟨-, he⟩
        · exact absurd (by simp [hlog]) (hno (sel.proposal name t.values.incidentMetadata))
        · obtain ⟨status, usage, he⟩ := he
          exact ⟨_, congrArg Traced.out he, rfl, rfl⟩

/-! ## The sample incidents -/

/-- The thread is at `propose_node`, and its answer proposes the tool. -/
def proposesNext (ctx : GraphContext) (env : NodeEnv) (name : String) (t : Thread) : Bool :=
  match t.next with
  | .node .propose => (proposeNode ctx env t.values).log.any fun e =>
      match e with
      | .proposed p => p.toolName == name
      | _ => false
  | _ => false

theorem exists_proposed {name : String} {t : Thread} (h : proposesNext ctx env name t = true) :
    t.next = .node .propose ∧
      ∃ p, .proposed p ∈ (proposeNode ctx env t.values).log ∧ p.toolName = name := by
  unfold proposesNext at h
  split at h
  · rename_i hn
    obtain ⟨e, hm, he⟩ := List.any_eq_true.mp h
    split at he
    · rename_i p
      exact ⟨hn, p, hm, by simpa using he⟩
    · cases he
  · cases h

/-- Every tool of the context has a schema and is at tier 1, and no tool is recorded. -/
theorem restartContext_eligible {s : AgentState} (hs : s.executedActions = []) :
    Eligible restartContext env s := by
  refine ⟨fun _ _ _ tool hm => ?_, fun _ _ name args _ _ hacc => ⟨?_, fun hrep => ?_⟩⟩
  · obtain rfl : tool = restartTool := List.mem_singleton.mp (List.mem_filter.mp hm).1
    exact ⟨_, rfl⟩
  · obtain ⟨tool, hget, -⟩ := argsSatisfySchema_iff.mp hacc.schema
    obtain rfl : tool = restartTool := List.mem_singleton.mp (ToolRegistry.get_ok hget).1
    exact ⟨restartTool, hget, by decide, by decide⟩
  · obtain ⟨_, _, r, hr, -⟩ := hrep.recorded
    rw [hs] at hr
    cases hr

/-- A restart is proposed, and the postcondition holds. -/
theorem proposal_post_restart :
    ∃ n es t, (graph restartContext).Run Sys.anyStep n es t ∧
      proposesNext restartContext (restartEnv []) "restart_deployment" t = true ∧
      ProposalPost restartContext t.values
        (proposeNode restartContext (restartEnv []) t.values) := by
  have hexec : ((graph restartContext).exec sampleThread
      (List.replicate 3 (.run (restartEnv [])))).any (fun r =>
        proposesNext restartContext (restartEnv []) "restart_deployment" r.1 &&
          r.1.values.executedActions.isEmpty) = true := by
    decide +kernel
  obtain ⟨t, es, hr, hc⟩ := Sys.exists_any_run sampleThread_initial hexec
  rw [Bool.and_eq_true] at hc
  have hrec : t.values.executedActions = [] := by simpa using hc.2
  exact ⟨_, es, t, hr, hc.1,
    (proposal_post_iff hr (exists_proposed hc.1).1 _).mpr (restartContext_eligible hrec)⟩

/-- A read-only tool that an answer names is proposed. -/
theorem read_only_tool_proposed :
    ¬ ∀ (ctx : GraphContext) (n : Nat) (es : List Event) (t : Thread) (env : NodeEnv),
      (graph ctx).Run Sys.anyStep n es t → t.next = .node .propose →
      ProposalPost ctx t.values (proposeNode ctx env t.values) := by
  intro hall
  have hexec : ((graph boundaryContext).exec sampleThread
      (List.replicate 3 (.run (sampleEnv (sampleAnswer "get_info" 1))))).any (fun r =>
        proposesNext boundaryContext (sampleEnv (sampleAnswer "get_info" 1)) "get_info" r.1) =
        true := by
    decide +kernel
  obtain ⟨t, es, hr, hc⟩ := Sys.exists_any_run sampleThread_initial hexec
  obtain ⟨hn, p, hm, hname⟩ := exists_proposed hc
  obtain ⟨⟨⟨tool, hget, h1, -⟩, -, -, -⟩, -⟩ := (hall _ _ es t _ hr hn).proposed p hm
  rw [hname] at hget
  obtain rfl : getInfoTool = tool := Except.ok.inj hget
  exact absurd h1 (by decide)

end Core
end AutoSRE
