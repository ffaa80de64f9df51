import AutoSRE.Core.Fallback
import AutoSRE.Safety.Outcomes

/-!
# The nodes of the graph (`core/graph_nodes.py`)

A node is a computation (`Node`) from the checkpoint to the updated checkpoint. It logs the events
that the properties of a run are about (`Event`), and it ends with an exception that escapes it, or
with the interrupt of `approve_node` (`NodeError`). What the environment chooses for one execution
of a node is a `NodeEnv`: the call of the language model, how the awaited handlers end (none is
cancelled), the clock and the resume value of an interrupt.

- **Usage** (`accumulateUsage`). The size of a prompt is part of the environment; the costs of a
  call are a parameter (`GraphContext.costOf`).
- **Nodes** (`triageNode`, …, `completeNode`), in the order of the source; `propose_node` is in
  `AutoSRE.Core.Propose`.
-/

namespace AutoSRE
namespace Core

open Lib Py Safety Tools

/-! ## Context and environment -/

/-- The run-scoped dependencies of the nodes, with the defaults of `GraphContext`. -/
structure GraphContext where
  registry : ToolRegistry
  executor : SafeExecutor
  /-- The run has an `SREContext`. -/
  sreContext : Bool := true
  /-- `calculate_cost_from_counts`: the billed and the estimated cost of a call. -/
  costOf : Int → Int → String → PyFloat × PyFloat := fun _ _ _ => (.zero, .zero)
  initialIterationBudget : Int := 3
  stagnationLimit : Int := 2
  maxActionAttempts : Int := 2
  confidencePropose : PyFloat := .ofRat (mkRat 55 100)
  confidenceFastPath : PyFloat := .ofRat (mkRat 80 100)
  minConfidenceImprovement : PyFloat := .ofRat (mkRat 5 100)

/-- The `usage` of a response. -/
inductive LlmUsage where
  | missing
  | counts (promptTokens completionTokens : Int)
  /-- A count that `int` rejects. -/
  | malformed (exc : PyExc)

/-- A response of the language model. -/
structure LlmResponse where
  /-- The model that the router used. -/
  modelUsed : String
  /-- The model that the response names. -/
  model : String
  usage : LlmUsage
  /-- The JSON value found in the content; `none` when there is none. -/
  payload : Option Json

/-- How a call of the language model ends. -/
inductive LlmOutcome where
  | response (r : LlmResponse)
  | budgetExhausted
  | failed (exc : PyExc)

/-- A call of the language model: its end, what it adds to the run metrics, and the number of
characters of its messages. -/
structure LlmCall where
  outcome : LlmOutcome
  backoffs : List PyFloat := []
  latency : PyFloat := .zero
  promptChars : Nat := 0

/-- What the environment chooses for one execution of a node. -/
structure NodeEnv where
  llm : LlmCall
  /-- The handler of the tool that `investigate_node` calls. -/
  tool : Outcome
  /-- The awaited calls of the executor. -/
  handlers : Handlers
  /-- `time.time()`. -/
  now : PyFloat
  toolCallId : String
  executedAt : String
  uncancelled : handlers.Uncancelled
  tool_uncancelled : tool ≠ .cancelled

/-! ## Events -/

/-- The payload of the interrupt of `approve_node`. -/
structure InterruptPayload where
  question : String
  incidentId : Json
  alertName : Json
  toolName : String
  toolArgs : PyDict
  riskTier : Int
  rationale : String

/-- What a run logs. -/
inductive Event where
  /-- A node is executed. -/
  | node (p : Phase)
  | llmCall (backoffs : List PyFloat) (latency : PyFloat)
  /-- `investigate_node` calls `registry.execute`. -/
  | toolCall (name : Json) (args : PyDict)
  /-- `propose_node` emits a proposal. -/
  | proposed (p : Proposal)
  /-- `approve_node` interrupts the run. -/
  | interrupt (payload : InterruptPayload)
  /-- The interrupt is resumed. -/
  | resumed (decision : Json)
  | approvalWait (seconds : PyFloat)
  /-- `execute_node` calls `executor.execute`. -/
  | executorCall (action : ProposedAction)
  /-- What the executor does in that call. -/
  | executor (e : ExecEvent)

/-- How a node ends without an update. -/
inductive NodeError where
  | raised (exc : PyExc)
  | interrupted (payload : InterruptPayload)

/-- The computations of the nodes. -/
abbrev Node := Traced NodeError Event

/-- Raise what a helper raises. -/
def orRaise {α : Type} (x : Except PyExc α) : Node α :=
  Traced.lift (x.mapError NodeError.raised)

/-! ## Usage -/

/-- Count a call of a model, in a new dictionary. -/
def trackModel (tokens : Int) (model : String) :
    List (String × ModelUsage) → List (String × ModelUsage)
  | [] => [(model, { calls := 1, tokens })]
  | (m, u) :: rest =>
    if m = model then (m, { calls := u.calls + 1, tokens := u.tokens + tokens }) :: rest
    else (m, u) :: trackModel tokens model rest

/-- The counts of a call: the reported ones, else an estimate from the messages. -/
def countTokens (usage : LlmUsage) (promptChars : Option Nat) : Except PyExc (Int × Int) :=
  let estimate : Int × Int :=
    match promptChars with
    | none => (0, 0)
    | some n =>
      let p : Int := Max.max 1 ((n / 4 : Nat) : Int)
      (p, Max.max 1 (p / 10))
  match usage with
  | .malformed exc => .error exc
  | .missing => .ok estimate
  | .counts p c => .ok (if p = 0 ∧ c = 0 then
      match promptChars with
      | none => (0, 0)
      | some _ => estimate
    else (p, c))

/-- The running totals after a call with the given counts. -/
def addUsage (ctx : GraphContext) (u : Usage) (p c : Int) (model : String) : Usage :=
  let cost := ctx.costOf p c model
  { tokensUsed := u.tokensUsed + p + c
    promptTokens := u.promptTokens + p
    completionTokens := u.completionTokens + c
    costUsd := u.costUsd.add cost.1
    estimatedPaidCostUsd := u.estimatedPaidCostUsd.add cost.2
    modelUsage := if model = "" then u.modelUsage else trackModel (p + c) model u.modelUsage }

/-- `_accumulate_usage` without a response: `promptChars` is `none` when there are no messages. -/
def accumulateNoResponse (ctx : GraphContext) (u : Usage) (promptChars : Option Nat) : Usage :=
  match countTokens .missing promptChars with
  | .ok (p, c) => addUsage ctx u p c ""
  | .error _ => u

/-- The model that a response is counted for. -/
def LlmResponse.trackedModel (r : LlmResponse) : String :=
  if r.modelUsed = "" then r.model else r.modelUsed

/-- `_accumulate_usage` of a response. -/
def accumulateUsage (ctx : GraphContext) (u : Usage) (r : LlmResponse) (promptChars : Nat) :
    Except PyExc Usage :=
  match countTokens r.usage (some promptChars) with
  | .ok (p, c) => .ok (addUsage ctx u p c r.trackedModel)
  | .error exc => .error exc

/-! ## Calls of the language model -/

section nodes

variable (ctx : GraphContext) (env : NodeEnv)

/-- The call of the language model is logged with what it adds to the run metrics. -/
def logLlmCall : Node Unit := Traced.emit (.llmCall env.llm.backoffs env.llm.latency)

/-- The parsed answer of a response, or what makes the `try` block fail. -/
def LlmOutcome.parsed (o : LlmOutcome) (stage : String) (allowArray : Bool) :
    Except PyExc (LlmResponse × PyDict) :=
  match o with
  | .response r => (parseJsonResponse stage allowArray r.payload).map fun d => (r, d)
  | .budgetExhausted => .error (.exception "LLMBudgetExhaustedError" "LLM budget exhausted")
  | .failed exc => .error exc

/-! ## Triage -/

/-- The update that every end of `triage_node` makes. -/
def triageUpdate (s : AgentState) (hypotheses : List PyDict) (usage : Usage) : AgentState :=
  { s with
    hypotheses
    iterationBudget := ctx.initialIterationBudget
    iterationCount := 0
    lastTopConfidence := .zero
    stagnationCount := 0
    actionAttempts := 0
    usage }

/-- The hypothesis that is used when the language model gives none. -/
def triageFallback (metadata : PyDict) : List PyDict :=
  [[("id", .str "H1"),
    ("description", .str ("Investigate " ++ metadataText metadata "alert_name" ++ " on " ++
      metadataText metadata "service")),
    ("confidence", .float (.ofRat (mkRat 2 10))), ("evidence", .arr []),
    ("status", .str "proposed")]]

/-- The category needs no action. -/
def noActionCategory (category : String) : Bool :=
  match fallbackActions category with
  | some fb => fb.toolName == "none"
  | none => false

/-- The `try` block of `triage_node`: the hypotheses and the usage. -/
def triageAnswer (s : AgentState) : Except PyExc (List PyDict × Usage) :=
  match env.llm.outcome.parsed "triage" true with
  | .error exc => .error exc
  | .ok (r, parsed) =>
    let fallback := triageFallback s.incidentMetadata
    let raw := orElse (PyDict.get? parsed "hypotheses")
      (orElse (PyDict.get? parsed "items") (.arr (fallback.map .obj)))
    match accumulateUsage ctx s.usage r env.llm.promptChars with
    | .error exc => .error exc
    | .ok usage => .ok (normalizeHypothesesSafe raw fallback, usage)

/-- `triage_node`. -/
def triageNode (s : AgentState) : Node AgentState :=
  let category := triageCategory s.incidentMetadata
  if noActionCategory category then
    pure { triageUpdate ctx s [] (accumulateNoResponse ctx s.usage none) with
      currentPhase := .complete, status := .noAction }
  else do
    logLlmCall env
    match triageAnswer ctx env s with
    | .ok (hypotheses, usage) =>
      pure { triageUpdate ctx s hypotheses usage with currentPhase := .investigate }
    | .error _ =>
      let usage := accumulateNoResponse ctx s.usage (some env.llm.promptChars)
      let s' := triageUpdate ctx s (triageFallback s.incidentMetadata) usage
      if noActionCategory category then
        pure { s' with currentPhase := .complete, status := .noAction }
      else pure { s' with currentPhase := .investigate }

/-! ## Investigate -/

/-- The tools that `investigate_node` offers. -/
def readOnlyTools : List Tool := ctx.registry.tools.filter fun tool => tool.riskTier == 0

/-- The schemas of a prompt; the first that raises escapes. -/
def toolSchemas : List Tool → Except PyExc (List InputSchema)
  | [] => .ok []
  | tool :: tools =>
    match tool.inputModel.schema with
    | .error exc => .error exc
    | .ok schema => (toolSchemas tools).map fun schemas => schema :: schemas

/-- A tool call that the node makes without the language model. -/
def defaultCall (metadata : PyDict) (tool : Tool) : Json :=
  let args :=
    match tool.inputModel.schema with
    | .ok schema =>
      defaultArgs schema (investigateNamespace metadata) (strip (metadataText metadata "service"))
    | .error _ => []
  .obj [("name", .str tool.name), ("args", .obj args)]

/-- The `try` block of `investigate_node`: the tool calls and the usage. -/
def investigateAnswer (s : AgentState) : Except PyExc (List Json × Usage) :=
  match env.llm.outcome.parsed "investigate" false with
  | .error exc => .error exc
  | .ok (r, parsed) =>
    let calls :=
      match PyDict.getD parsed "tools" (.arr []) with
      | .arr calls => calls
      | _ => []
    match accumulateUsage ctx s.usage r env.llm.promptChars with
    | .error exc => .error exc
    | .ok usage => .ok (calls, usage)

/-- The tool calls of `investigate_node` and the usage: from the answer, else one for each
read-only tool. -/
def selectCalls (s : AgentState) : List Json × Usage :=
  match investigateAnswer ctx env s with
  | .ok r => r
  | .error _ =>
    ((readOnlyTools ctx).map (defaultCall s.incidentMetadata),
      accumulateNoResponse ctx s.usage (some env.llm.promptChars))

/-- How a call of `registry.execute` ends: a value that is no name of a tool cannot be found or
hashed. -/
def registryExecute (name : Json) (args : PyDict) : Outcome :=
  match name with
  | .str name => ctx.registry.execute name args env.tool
  | v =>
    if v.hashable then
      .raised (.toolNotFoundError ("Tool '" ++ v.toStr ++ "' is not registered"))
    else .raised (.typeError ("cannot use '" ++ v.typeName ++
      "' as a dict key (unhashable type: '" ++ v.typeName ++ "')"))

/-- The evidence of a tool call. -/
def callEvidence (name : Json) (args : PyDict) : Outcome → String
  | .returned v =>
    "Tool " ++ name.toStr ++ "(" ++ (Json.obj args).dumps true false ++
      ") status=succeeded output=" ++ safeJson v 2000
  | .raised exc =>
    "Tool " ++ name.toStr ++ "(" ++ (Json.obj args).dumps true false ++
      ") status=failed error=" ++ exc.text
  | .cancelled => ""

/-- The arguments of a tool call. -/
def callArgs (call : PyDict) : PyDict :=
  match PyDict.getD call "args" (.obj []) with
  | .obj args => args
  | _ => []

/-- One iteration of the loop over the tool calls: the evidence. -/
def executeCall (metadata : PyDict) (call : Json) : Node (List String) :=
  match call.asDict? with
  | none => pure []
  | some call => do
    let name := PyDict.getD call "name" (.str "")
    let args ← orRaise (clampNamespaceOf (callArgs call) (investigateNamespace metadata) name)
    if ctx.sreContext then
      Traced.emit (.toolCall name args)
      pure [callEvidence name args (registryExecute ctx env name args)]
    else
      pure ["Tool " ++ name.toStr ++ "(" ++ (Json.obj args).dumps true false ++
        ") status=failed error=no SREContext"]

/-- The loop over the first `_MAX_TOOLS_PER_ITERATION` tool calls. -/
def executeCalls (metadata : PyDict) : List Json → Node (List String)
  | [] => pure []
  | call :: _ => executeCall ctx env metadata call

/-- A hypothesis with more evidence. -/
def appendEvidence (results : List String) (h : PyDict) : Except PyExc PyDict :=
  match (PyDict.getD h "evidence" (.arr [])).toList with
  | .ok evidence => .ok (PyDict.set h "evidence" (.arr (evidence ++ results.map .str)))
  | .error exc => .error exc

/-- Every hypothesis with more evidence. -/
def appendAllEvidence (results : List String) : List PyDict → Except PyExc (List PyDict)
  | [] => .ok []
  | h :: hs =>
    match appendEvidence results h with
    | .error exc => .error exc
    | .ok h' =>
      match appendAllEvidence results hs with
      | .error exc => .error exc
      | .ok hs' => .ok (h' :: hs')

/-- `investigate_node`. -/
def investigateNode (s : AgentState) : Node AgentState :=
  let s' := { s with
    iterationBudget := Max.max 0 (s.iterationBudget - 1)
    iterationCount := s.iterationCount + 1
    currentPhase := .hypothesize }
  if (readOnlyTools ctx).isEmpty then pure s'
  else do
    let _ ← orRaise (toolSchemas (readOnlyTools ctx))
    logLlmCall env
    let (calls, usage) := selectCalls ctx env s
    let results ← executeCalls ctx env s.incidentMetadata calls
    let hypotheses ← orRaise (appendAllEvidence results s.hypotheses)
    pure { s' with hypotheses, usage }

/-! ## Hypothesize -/

/-- The hypotheses of an answer that keep an identifier; an unhashable one raises. -/
def refinedWith (ids : List String) : List PyDict → Except PyExc (List PyDict)
  | [] => .ok []
  | h :: hs =>
    match PyDict.getD h "id" .null with
    | .str id =>
      (refinedWith ids hs).map fun rest => if id ∈ ids then h :: rest else rest
    | v =>
      if v.hashable then refinedWith ids hs
      else .error (.typeError ("cannot use '" ++ v.typeName ++
        "' as a set element (unhashable type: '" ++ v.typeName ++ "')"))

/-- The identifiers of the hypotheses. -/
def originalIds (hypotheses : List PyDict) : List String :=
  hypotheses.filterMap fun h =>
    match PyDict.getD h "id" .null with
    | .str id => some id
    | _ => none

/-- A refinement: the hypotheses, the confidence of the top one, and the stagnation count. -/
structure Refinement where
  hypotheses : List PyDict
  confidence : PyFloat
  stagnationCount : Int
  usage : Usage

/-- The refined hypotheses of an answer: the original ones when it keeps none. -/
def refine (hypotheses : List PyDict) (parsed : PyDict) : Except PyExc (List PyDict) :=
  let raw := orElse (PyDict.get? parsed "hypotheses")
    (orElse (PyDict.get? parsed "items") (.arr (hypotheses.map .obj)))
  (refinedWith (originalIds hypotheses) (coerceDictList raw)).map fun refined =>
    if refined.isEmpty then hypotheses else refined

/-- The `try` block of `hypothesize_node`. -/
def hypothesizeAnswer (s : AgentState) : Except PyExc Refinement :=
  match env.llm.outcome.parsed "hypothesize" true with
  | .error exc => .error exc
  | .ok (r, parsed) =>
    match refine s.hypotheses parsed with
    | .error exc => .error exc
    | .ok hypotheses =>
      match topConfidence hypotheses with
      | .error exc => .error exc
      | .ok confidence =>
        let improvement := confidence.sub s.lastTopConfidence
        let stagnationCount :=
          if ctx.minConfidenceImprovement.le improvement then 0 else s.stagnationCount + 1
        match accumulateUsage ctx s.usage r env.llm.promptChars with
        | .error exc => .error exc
        | .ok usage => .ok { hypotheses, confidence, stagnationCount, usage }

/-- `hypothesize_node`. -/
def hypothesizeNode (s : AgentState) : Node AgentState :=
  if s.hypotheses.isEmpty then
    pure { s with
      currentPhase := .complete, status := .failed, usage := accumulateNoResponse ctx s.usage none }
  else do
    let current ← orRaise (topConfidence s.hypotheses)
    if ctx.confidenceFastPath.le current || s.iterationBudget ≤ 0 then
      pure { s with currentPhase := .propose, lastTopConfidence := current }
    else
      logLlmCall env
      match hypothesizeAnswer ctx env s with
      | .ok r =>
        let propose := ctx.confidenceFastPath.le r.confidence ||
          decide (ctx.stagnationLimit ≤ r.stagnationCount)
        pure { s with
          hypotheses := r.hypotheses
          currentPhase := if propose then .propose else .investigate
          lastTopConfidence := r.confidence
          stagnationCount := r.stagnationCount
          usage := r.usage }
      | .error _ =>
        pure { s with
          currentPhase := .propose
          lastTopConfidence := current
          usage := accumulateNoResponse ctx s.usage (some env.llm.promptChars) }

/-! ## Approve -/

/-- The payload of the interrupt for a proposal. -/
def interruptPayload (metadata : PyDict) (p : Proposal) : InterruptPayload where
  question := "This action requires human approval before execution."
  incidentId := PyDict.getD metadata "incident_id" (.str "")
  alertName := PyDict.getD metadata "alert_name" (.str "")
  toolName := p.toolName
  toolArgs := p.toolArgs
  riskTier := p.riskTier
  rationale := p.rationale

/-- The resume value approves. -/
def approves : Json → Bool
  | .obj d => (PyDict.getD d "approved" (.bool false)).truthy
  | v => v.truthy

/-- What `approve_node` does with the resume value. -/
def afterResume (s : AgentState) (requestedAt : PyFloat) (decision : Json) : Node AgentState := do
  Traced.emit (.resumed decision)
  let wait := env.now.sub requestedAt
  Traced.emit (.approvalWait wait)
  if approves decision then
    pure { s with
      approvalGranted := some true
      proposedActions := s.proposedActions.map fun p => { p with requiresApproval := false }
      approvalWaitSeconds := wait.round3
      currentPhase := .execute }
  else
    pure { s with
      approvalGranted := some false
      approvalWaitSeconds := wait.round3
      currentPhase := .complete
      status := .noAction }

/-- `approve_node`; `resume` is the value with which the run is resumed at its interrupt. -/
def approveNode (resume : Option Json) (s : AgentState) : Node AgentState :=
  if !s.requiresHumanApproval then pure { s with currentPhase := .execute }
  else
    match s.approvalGranted with
    | some true => pure { s with currentPhase := .execute }
    | some false => pure { s with currentPhase := .complete, status := .noAction }
    | none =>
      match s.approvalRequestedAt with
      | none => pure { s with approvalRequestedAt := some env.now, currentPhase := .approve }
      | some requestedAt =>
        match s.proposedActions with
        | [] => pure { s with currentPhase := .complete, status := .noAction }
        | p :: _ =>
          match resume with
          | some decision => afterResume env s requestedAt decision
          | none => do
            let payload := interruptPayload s.incidentMetadata p
            Traced.emit (.interrupt payload)
            Traced.raise (.interrupted payload)

/-! ## Execute -/

/-- The record of a result of the executor. -/
def executedAction (p : Proposal) (r : ExecutionResult) : ExecutedAction where
  toolName := p.toolName
  toolArgs := p.toolArgs
  toolCallId := env.toolCallId
  result := r.output.getD []
  success := r.executed && r.error.isNone
  executedAt := env.executedAt
  verificationPassed := r.verified

/-- The call of the executor, and its end. -/
def callExecutor (action : ProposedAction) : Node (Except ExecError ExecutionResult) :=
  let run := ctx.executor.execute env.handlers none action
  ⟨.executorCall action :: run.log.map .executor, .ok run.out⟩

/-- `execute_node`. -/
def executeNode (s : AgentState) : Node AgentState :=
  match s.proposedActions with
  | [] => pure { s with currentPhase := .complete, status := .failed }
  | p :: _ =>
    if ctx.maxActionAttempts ≤ s.actionAttempts || !ctx.sreContext then
      pure { s with currentPhase := .complete, status := .failed }
    else do
      let alreadyApproved := s.approvalGranted == some true
      let action ← orRaise (ProposedAction.make p.toolName p.toolArgs
        (if alreadyApproved then 1 else p.riskTier) p.rationale
        (if alreadyApproved then false else p.requiresApproval))
      match ← callExecutor ctx env action with
      | .ok r =>
        let executed := executedAction env p r
        pure { s with
          executedActions := s.executedActions ++ [executed]
          actionAttempts := s.actionAttempts + 1
          currentPhase := if executed.success then .verify else .propose }
      | .error _ =>
        pure { s with actionAttempts := s.actionAttempts + 1, currentPhase := .propose }

/-! ## Verify -/

/-- An action that is not verified is proposed again, up to the cap on attempts. -/
def retryOrFail (s : AgentState) : AgentState :=
  if ctx.maxActionAttempts ≤ s.actionAttempts then
    { s with currentPhase := .complete, status := .failed }
  else { s with currentPhase := .propose }

/-- `verify_node`. -/
def verifyNode (s : AgentState) : Node AgentState :=
  match s.executedActions.getLast? with
  | none => pure { s with currentPhase := .complete, status := .failed }
  | some last =>
    match last.verificationPassed with
    | some true => pure { s with currentPhase := .complete, status := .resolved }
    | some false => pure (retryOrFail ctx s)
    | none =>
      if last.success then pure { s with currentPhase := .complete, status := .resolved }
      else pure (retryOrFail ctx s)

/-! ## Complete -/

/-- The final status, derived from the executed actions. -/
def finalStatus (s : AgentState) : Status :=
  if s.requiresHumanApproval && s.approvalGranted.isNone then .running
  else if s.executedActions.any (·.success) then .resolved
  else if s.executedActions.isEmpty then .noAction
  else .failed

/-- `complete_node`. -/
def completeNode (metrics : Option RunMetrics) (s : AgentState) : Node AgentState :=
  let wallClock :=
    if PyFloat.lt .zero s.startedAt then
      PyFloat.max (.ofRat (mkRat 1 1000)) (env.now.sub s.startedAt)
    else .zero
  let m := metrics.getD {}
  let active := PyFloat.max .zero ((wallClock.sub m.backoffSeconds).sub m.approvalWaitSeconds)
  pure { s with
    currentPhase := .complete
    status := finalStatus s
    wallClockSeconds := wallClock.round3
    backoffSeconds := m.backoffSeconds.round3
    approvalWaitSeconds := m.approvalWaitSeconds.round3
    llmLatencySeconds := m.llmLatencySeconds.round3
    activeSeconds := active.round3 }

end nodes

end Core
end AutoSRE
