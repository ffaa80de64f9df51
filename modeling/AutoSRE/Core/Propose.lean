import AutoSRE.Core.Nodes

/-!
# `propose_node`

The node selects an action (`Selection`) and then checks it.

- **From the answer** (`llmSelection`). The tool name, the arguments and the tier that the language
  model writes; `parseRiskTier` is how its tier is read. `proposeAnswer` is the `try` block: an
  answer is dropped when the confidence is low or the tool is forbidden for the category.
- **From the category** (`fallbackSelection`). The template of the category, completed from the
  incident.
- **The checks** (`checkSelection`): duplicates, the cap on attempts, the namespace and the schema.

A usage that is counted before the `try` block fails stays visible in the dictionaries of models
that were counted before (`leakUsage`): they are shared with the state.
-/

namespace AutoSRE
namespace Core

open Lib Py Safety Tools

/-- An action that `propose_node` has selected, and the usage. -/
structure Selection where
  toolName : Option String
  toolArgs : PyDict
  rationale : String
  riskTier : Int
  usage : Usage

/-- The tier of an answer: an integer, or a text that `int` reads; anything else is 1. -/
def parseRiskTier : Option Json → Int
  | some (.int i) => i
  | some (.bool b) => if b then 1 else 0
  | some (.str s) => (intOfText s).getD 1
  | _ => 1

/-- The arguments of an answer, without a namespace for a tool that takes none. -/
def answerArgs (toolName : Option String) (parsed : PyDict) : PyDict :=
  let args :=
    match PyDict.get? parsed "tool_args" with
    | some (.obj args) => args
    | _ => []
  match toolName with
  | some name => if name ∈ toolsWithNamespace then args else PyDict.pop args "namespace"
  | none => PyDict.pop args "namespace"

/-- The selection of an answer. -/
def llmSelection (parsed : PyDict) (usage : Usage) : Selection :=
  let toolName := coerceToolName (PyDict.get? parsed "tool_name")
  { toolName
    toolArgs := answerArgs toolName parsed
    rationale := (PyDict.getD parsed "rationale" (.str "")).toStr
    riskTier := parseRiskTier (PyDict.get? parsed "risk_tier")
    usage }

/-- The usage that a failed `try` block leaves behind. -/
def leakUsage (before after : Usage) : Usage :=
  { before with
    modelUsage := if after.modelUsage.length = before.modelUsage.length then after.modelUsage
      else before.modelUsage }

section propose

variable (ctx : GraphContext) (env : NodeEnv)

/-- The answer is dropped: the confidence is low, or the tool is forbidden for the category. -/
def dropped (confidence : PyFloat) (category : String) (toolName : Option String) : Bool :=
  confidence.lt ctx.confidencePropose ||
    match toolName with
    | some name => name ∈ forbiddenTools category
    | none => false

/-- The `try` block: a selection, or the usage that the failed block leaves. -/
def proposeAnswer (s : AgentState) (confidence : PyFloat) (category : String) :
    Except Usage Selection :=
  match env.llm.outcome.parsed "propose" false with
  | .error _ => .error s.usage
  | .ok (r, parsed) =>
    match accumulateUsage ctx s.usage r env.llm.promptChars with
    | .error _ => .error s.usage
    | .ok usage =>
      let selection := llmSelection parsed usage
      if dropped ctx confidence category selection.toolName then .error (leakUsage s.usage usage)
      else .ok selection

/-- The selection of a template; `cause` says why in the rationale. A template of a tool that is
`none` or forbidden is no selection. -/
def fallbackSelection (metadata : PyDict) (category cause : String) (best : Option PyDict)
    (usage : Usage) : Option Selection :=
  match fallbackActions category with
  | none => none
  | some fb =>
    if fb.toolName = "none" ∨ fb.toolName ∈ forbiddenTools category then none
    else
      let description :=
        match best with
        | some best => (PyDict.getD best "description" (.str "")).toStr
        | none => ""
      some
        { toolName := some fb.toolName
          toolArgs := buildFallbackArgs fb metadata
          rationale := "Fallback action for category '" ++ category ++ "' (" ++ cause ++
            "). Top hypothesis: " ++ String.ofList (description.toList.take 100)
          riskTier := fb.riskTier
          usage }

/-- The node ends without a proposal. -/
def noProposal (s : AgentState) (status : Status) (usage : Usage) : Node AgentState :=
  pure { s with currentPhase := .complete, status, usage }

/-- The proposal of a selection, after the namespace is enforced. -/
def Selection.proposal (sel : Selection) (name : String) (metadata : PyDict) : Proposal where
  toolName := name
  toolArgs := clampNamespace sel.toolArgs (proposeNamespace metadata) name
  riskTier := sel.riskTier
  rationale := sel.rationale
  requiresApproval := decide (2 ≤ sel.riskTier)

/-- The checks of a selected tool, and the proposal. -/
def checkSelection (s : AgentState) (sel : Selection) (name : String) : Node AgentState :=
  let p := sel.proposal name s.incidentMetadata
  if isActionAlreadyExecuted name sel.toolArgs s.executedActions then
    noProposal s .noAction sel.usage
  else if 2 ≤ countActionAttempts name s.executedActions ∧ name ∈ mutatingTools then
    noProposal s .failed sel.usage
  else if !argsSatisfySchema ctx.registry name p.toolArgs then noProposal s .noAction sel.usage
  else do
    Traced.emit (.proposed p)
    pure { s with
      proposedActions := [p]
      requiresHumanApproval := p.requiresApproval
      currentPhase := if p.requiresApproval then .approve else .execute
      usage := sel.usage }

/-- An answer that names no tool is replaced by the template of the category. -/
def resolveNone (s : AgentState) (category : String) (best : Option PyDict) (sel : Selection) :
    Option Selection :=
  match sel.toolName with
  | none | some "none" =>
    fallbackSelection s.incidentMetadata category "LLM returned no action" best sel.usage
  | some _ => some sel

/-- The selection of the node: from the answer, else from the category; and the usage when there is
none. -/
def selectAction (s : AgentState) (confidence : PyFloat) (category : String)
    (best : Option PyDict) : Except Usage Selection :=
  let selected : Except Usage Selection :=
    match proposeAnswer ctx env s confidence category with
    | .ok sel => .ok sel
    | .error usage =>
      let usage := accumulateNoResponse ctx usage (some env.llm.promptChars)
      match fallbackSelection s.incidentMetadata category "LLM unavailable or low confidence" best
          usage with
      | some sel => .ok sel
      | none => .error usage
  match selected with
  | .error usage => .error usage
  | .ok sel =>
    match resolveNone s category best sel with
    | some sel' => .ok sel'
    | none => .error sel.usage

/-- The tools that `propose_node` offers. -/
def eligibleTools : List Tool :=
  ctx.registry.tools.filter fun tool => tool.riskTier == 1 || tool.riskTier == 2

/-- `propose_node`. -/
def proposeNode (s : AgentState) : Node AgentState :=
  if ctx.maxActionAttempts ≤ s.actionAttempts then
    pure { s with currentPhase := .complete, status := .failed }
  else if s.hypotheses.isEmpty then
    pure { s with currentPhase := .complete, status := .noAction }
  else do
    let confidence ← orRaise (topConfidence s.hypotheses)
    let category ← orRaise (proposeCategory s.incidentMetadata)
    if noActionCategory category then
      noProposal s .noAction (accumulateNoResponse ctx s.usage none)
    else
      let _ ← orRaise (toolSchemas (eligibleTools ctx))
      logLlmCall env
      match selectAction ctx env s confidence category (topHypothesis s.hypotheses) with
      | .error usage => noProposal s .noAction usage
      | .ok sel =>
        match sel.toolName with
        | none => noProposal s .noAction sel.usage
        | some name => checkSelection ctx s sel name

end propose

end Core
end AutoSRE
