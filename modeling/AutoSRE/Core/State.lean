import AutoSRE.Python.Render

/-!
# The state of an incident (`core/state.py`)

- **Actions** (`ProposedAction`, `ExecutedAction`). The Pydantic model that the graph hands to the
  executor, whose bounds on `risk_tier` the structure carries, and the record of a call.
- **The checkpoint** (`AgentState`). What the nodes read and write; `createInitialState` is the
  state before the first node. A key that no node reads (`messages`, `approval_comment`) is left
  out. A phase is a `Phase`, a status a `Status`.
- **Run metrics** (`RunMetrics`). The counters that a run carries next to its state.
-/

namespace AutoSRE
namespace Core

open Py

/-! ## Actions -/

/-- Remediation proposal awaiting policy decision. -/
structure ProposedAction where
  toolName : String
  toolArgs : PyDict
  riskTier : Int
  rationale : String
  requiresApproval : Bool
  tier_nonneg : 0 ≤ riskTier
  tier_le : riskTier ≤ 4

namespace ProposedAction

/-- `ProposedAction(...)`. -/
def make (toolName : String) (toolArgs : PyDict) (riskTier : Int) (rationale : String)
    (requiresApproval : Bool) : Except PyExc ProposedAction :=
  if h₀ : 0 ≤ riskTier then
    if h₄ : riskTier ≤ 4 then
      .ok { toolName, toolArgs, riskTier, rationale, requiresApproval
            tier_nonneg := h₀, tier_le := h₄ }
    else .error (.validationError
      "1 validation error for ProposedAction\nrisk_tier\n  Input should be less than or equal to 4")
  else .error (.validationError
    ("1 validation error for ProposedAction\nrisk_tier\n" ++
      "  Input should be greater than or equal to 0"))

theorem make_ok {toolName : String} {toolArgs : PyDict} {riskTier : Int} {rationale : String}
    {requiresApproval : Bool} {a : ProposedAction}
    (h : make toolName toolArgs riskTier rationale requiresApproval = .ok a) :
    a.toolName = toolName ∧ a.toolArgs = toolArgs ∧ a.riskTier = riskTier ∧
      a.requiresApproval = requiresApproval := by
  unfold make at h
  split at h
  · split at h
    · cases h
      exact ⟨rfl, rfl, rfl, rfl⟩
    · cases h
  · cases h

theorem make_of_bounds {riskTier : Int} (h₀ : 0 ≤ riskTier) (h₄ : riskTier ≤ 4)
    (toolName : String) (toolArgs : PyDict) (rationale : String) (requiresApproval : Bool) :
    ∃ a, make toolName toolArgs riskTier rationale requiresApproval = .ok a := by
  simp only [make, h₀, h₄, dif_pos]
  exact ⟨_, rfl⟩

end ProposedAction

/-- Executed tool call with verification result. -/
structure ExecutedAction where
  toolName : String
  toolArgs : PyDict
  toolCallId : String
  result : PyDict
  success : Bool
  executedAt : String
  verificationPassed : Option Bool

/-! ## The checkpoint -/

/-- The phases of the graph, which are its nodes. -/
inductive Phase where
  | triage
  | investigate
  | hypothesize
  | propose
  | approve
  | execute
  | verify
  | complete
  deriving DecidableEq, Repr

/-- The status of an incident. -/
inductive Status where
  | running
  | resolved
  | failed
  | noAction
  deriving DecidableEq, Repr

/-- Alert payload fields carried through the graph. -/
structure IncidentMetadata where
  incidentId : String
  alertName : String
  service : String
  namespaceName : String
  severity : String
  startedAt : String
  fingerprint : String := ""
  description : String := ""
  labels : List (String × String) := []
  annotations : List (String × String) := []

/-- A map of strings as a `dict`. -/
def stringDict (d : List (String × String)) : Json := .obj (d.map fun p => (p.1, .str p.2))

/-- `model_dump()`. -/
def IncidentMetadata.modelDump (m : IncidentMetadata) : PyDict :=
  [("incident_id", .str m.incidentId), ("alert_name", .str m.alertName),
    ("service", .str m.service), ("namespace", .str m.namespaceName), ("severity", .str m.severity),
    ("started_at", .str m.startedAt), ("fingerprint", .str m.fingerprint),
    ("description", .str m.description), ("labels", stringDict m.labels),
    ("annotations", stringDict m.annotations)]

/-- A proposed action in the state (`_build_proposed_action`). -/
structure Proposal where
  toolName : String
  toolArgs : PyDict
  riskTier : Int
  rationale : String
  requiresApproval : Bool

/-- Calls and tokens of one model. -/
structure ModelUsage where
  calls : Int
  tokens : Int

/-- Token and cost tracking. -/
structure Usage where
  tokensUsed : Int
  promptTokens : Int
  completionTokens : Int
  costUsd : PyFloat
  estimatedPaidCostUsd : PyFloat
  modelUsage : List (String × ModelUsage)

/-- The checkpoint payload. -/
structure AgentState where
  incidentMetadata : PyDict
  hypotheses : List PyDict
  proposedActions : List Proposal
  executedActions : List ExecutedAction
  currentPhase : Phase
  iterationCount : Int
  iterationBudget : Int
  lastTopConfidence : PyFloat
  stagnationCount : Int
  actionAttempts : Int
  requiresHumanApproval : Bool
  approvalGranted : Option Bool
  approvalRequestedAt : Option PyFloat
  usage : Usage
  wallClockSeconds : PyFloat
  backoffSeconds : PyFloat
  activeSeconds : PyFloat
  approvalWaitSeconds : PyFloat
  llmLatencySeconds : PyFloat
  startedAt : PyFloat
  status : Status

/-- `create_initial_state`, at the time `now`. -/
def createInitialState (metadata : IncidentMetadata) (initialIterationBudget : Int)
    (now : PyFloat) : AgentState where
  incidentMetadata := metadata.modelDump
  hypotheses := []
  proposedActions := []
  executedActions := []
  currentPhase := .triage
  iterationCount := 0
  iterationBudget := initialIterationBudget
  lastTopConfidence := .zero
  stagnationCount := 0
  actionAttempts := 0
  requiresHumanApproval := false
  approvalGranted := none
  approvalRequestedAt := none
  usage :=
    { tokensUsed := 0, promptTokens := 0, completionTokens := 0, costUsd := .zero
      estimatedPaidCostUsd := .zero, modelUsage := [] }
  wallClockSeconds := .zero
  backoffSeconds := .zero
  activeSeconds := .zero
  approvalWaitSeconds := .zero
  llmLatencySeconds := .zero
  startedAt := now
  status := .running

/-! ## Run metrics -/

/-- Per-run counters that `complete_node` reads. -/
structure RunMetrics where
  backoffSeconds : PyFloat := .zero
  approvalWaitSeconds : PyFloat := .zero
  llmLatencySeconds : PyFloat := .zero

namespace RunMetrics

/-- `total += seconds`, if `seconds > 0`. -/
def addPositive (total seconds : PyFloat) : PyFloat :=
  if PyFloat.lt .zero seconds then total.add seconds else total

/-- `record_backoff`. -/
def recordBackoff (m : RunMetrics) (seconds : PyFloat) : RunMetrics :=
  { m with backoffSeconds := addPositive m.backoffSeconds seconds }

/-- `record_approval_wait`. -/
def recordApprovalWait (m : RunMetrics) (seconds : PyFloat) : RunMetrics :=
  { m with approvalWaitSeconds := addPositive m.approvalWaitSeconds seconds }

/-- `record_llm_latency`. -/
def recordLlmLatency (m : RunMetrics) (seconds : PyFloat) : RunMetrics :=
  { m with llmLatencySeconds := addPositive m.llmLatencySeconds seconds }

end RunMetrics

end Core
end AutoSRE
