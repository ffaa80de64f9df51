import AutoSRE.Lib.Dict
import AutoSRE.Python.Render
import AutoSRE.Python.Text

/-!
# What the console reads of a state (`api/routes.py`)

- **Numbers and texts** (`asFloat`, `asInt`, `asStr`). A value that has the wrong type is read as
  the default. An infinite float and an integer that no float can hold raise an exception.
- **The status** (`deriveStatus`, `statusOf`) and **the summary** (`extractSummary`) of an incident.
-/

namespace AutoSRE
namespace Api

open Py Lib

theorem of_bind_ok {α β : Type} {x : Except PyExc α} {f : α → Except PyExc β} {b : β}
    (h : (x >>= f) = .ok b) : ∃ a, x = .ok a ∧ f a = .ok b := by
  cases x with
  | error exc => cases h
  | ok a => exact ⟨a, rfl, h⟩

/-! ## Values -/

/-- `_as_float`. -/
def asFloat (value : Json) (default : PyFloat := .zero) : Except PyExc PyFloat :=
  match value with
  | .null => .ok default
  | value =>
    match value.toFloat with
    | .error (.typeError _) => .ok default
    | .error (.valueError _) => .ok default
    | r => r

/-- `int(x)` of a float that has an integer part. -/
def truncate (q : Rat) : Int := Int.tdiv q.num q.den

/-- `_as_int`. -/
def asInt (value : Json) (default : Int := 0) : Except PyExc Int :=
  match value with
  | .int i => .ok i
  | .float (.finite q) => .ok (truncate q)
  | .float (.inf _) => .error (.overflowError "cannot convert float infinity to integer")
  | .str s => .ok ((intOfText s).getD default)
  | _ => .ok default

/-- `value is None`. -/
def isNone : Json → Bool
  | .null => true
  | _ => false

/-- `_as_str`. -/
def asStr (value : Json) (default : String := "") : String :=
  match value with
  | .null => default
  | value => value.toStr

structure ModelUsage where
  calls : Int
  tokens : Int
  deriving DecidableEq

/-- The loop of `_as_model_usage`. -/
def normalizeUsage (result : Dict String ModelUsage) :
    PyDict → Except PyExc (Dict String ModelUsage)
  | [] => .ok result
  | (rawModel, rawUsage) :: items =>
    let model := strip rawModel
    match rawUsage with
    | .obj usage =>
      if model = "" then normalizeUsage result items
      else do
        let calls ← asInt (PyDict.getD usage "calls" (.int 0))
        let tokens ← asInt (PyDict.getD usage "tokens" (.int 0))
        normalizeUsage (result.set model ⟨calls, tokens⟩) items
    | _ => normalizeUsage result items

/-- `_as_model_usage`. -/
def asModelUsage (value : Json) : Except PyExc (Dict String ModelUsage) :=
  normalizeUsage .empty (value.asDict?.getD [])

/-- `_state_values`, of the `values` of a snapshot. -/
def stateValues (state : Json) : PyDict := state.asDict?.getD []

/-- An incident with its values, unless there are none. -/
def liveEntry (s : String × Json) : Option (String × PyDict) :=
  if (stateValues s.2).isEmpty then none else some (s.1, stateValues s.2)

/-- The incidents that have values; every loop over the states skips the others. -/
def live (states : List (String × Json)) : List (String × PyDict) := states.filterMap liveEntry

/-! ## The status -/

/-- `_derive_status`. -/
def deriveStatus (rawStatus : String) (requiresApproval : Bool) (approvalGranted : Json) : String :=
  if requiresApproval = true ∧ isNone approvalGranted = true ∧ rawStatus = "running" then
    "awaiting_approval"
  else rawStatus

/-- `_as_str(values.get("status", "unknown"))`. -/
def rawStatusOf (values : PyDict) : String := asStr (PyDict.getD values "status" (.str "unknown"))

/-- The derived status of an incident. -/
def statusOf (values : PyDict) : String :=
  deriveStatus (rawStatusOf values)
    (PyDict.getD values "requires_human_approval" (.bool false)).truthy
    (PyDict.getD values "approval_granted" .null)

/-! ## The summary -/

/-- `values.get(key) or {}`, when it is a dictionary. -/
def dictField (values : PyDict) (key : String) : PyDict :=
  ((PyDict.getD values key .null).asDict?).getD []

/-- `values.get(key) or []`, when it is a list. -/
def listField (values : PyDict) (key : String) : List Json :=
  match PyDict.getD values key .null with
  | .arr xs => xs
  | _ => []

structure IncidentSummary where
  incidentId : String
  status : String
  phase : String
  alertName : String
  service : String
  namespaceName : String
  severity : String
  startedAt : String
  requiresHumanApproval : Bool
  approvalGranted : Option Bool
  tokensUsed : Int
  promptTokens : Int
  completionTokens : Int
  costUsd : PyFloat
  estimatedPaidCostUsd : PyFloat
  modelUsage : Dict String ModelUsage
  wallClockSeconds : PyFloat
  activeSeconds : PyFloat
  backoffSeconds : PyFloat
  approvalWaitSeconds : PyFloat
  iterations : Int
  proposedActions : List PyDict
  executedActions : List PyDict

/-- The check of a field of type `list[dict[str, Any]]`. -/
def checkDicts (field : String) : Nat → List Json → Except PyExc (List PyDict)
  | _, [] => .ok []
  | i, .obj d :: xs => do
    let rest ← checkDicts field (i + 1) xs
    pure (d :: rest)
  | i, _ :: _ => .error (.validationError ("1 validation error for IncidentSummary\n" ++ field ++
      "." ++ toString i ++ "\n  Input should be a valid dictionary"))

/-- `_extract_summary`. -/
def extractSummary (incidentId : String) (values : PyDict) : Except PyExc IncidentSummary := do
  let metadata := dictField values "incident_metadata"
  let tokensUsed ← asInt (PyDict.getD values "tokens_used" (.int 0))
  let promptTokens ← asInt (PyDict.getD values "prompt_tokens" (.int 0))
  let completionTokens ← asInt (PyDict.getD values "completion_tokens" (.int 0))
  let costUsd ← asFloat (PyDict.getD values "cost_usd" (.float .zero))
  let estimatedPaidCostUsd ← asFloat (PyDict.getD values "estimated_paid_cost_usd" (.float .zero))
  let modelUsage ← asModelUsage (PyDict.getD values "model_usage" (.obj []))
  let wallClockSeconds ← asFloat (PyDict.getD values "wall_clock_seconds" (.float .zero))
  let activeSeconds ← asFloat (PyDict.getD values "active_seconds" (.float .zero))
  let backoffSeconds ← asFloat (PyDict.getD values "backoff_seconds" (.float .zero))
  let approvalWaitSeconds ← asFloat (PyDict.getD values "approval_wait_seconds" (.float .zero))
  let iterations ← asInt (PyDict.getD values "iteration_count" (.int 0))
  let proposedActions ← checkDicts "proposed_actions" 0 (listField values "proposed_actions")
  let executedActions ← checkDicts "executed_actions" 0 (listField values "executed_actions")
  pure {
    incidentId, tokensUsed, promptTokens, completionTokens, costUsd, estimatedPaidCostUsd
    modelUsage, wallClockSeconds, activeSeconds, backoffSeconds, approvalWaitSeconds, iterations
    proposedActions, executedActions
    status := statusOf values
    phase := asStr (PyDict.getD values "current_phase" (.str "unknown"))
    alertName := asStr (PyDict.getD metadata "alert_name" (.str ""))
    service := asStr (PyDict.getD metadata "service" (.str ""))
    namespaceName := asStr (PyDict.getD metadata "namespace" (.str ""))
    severity := asStr (PyDict.getD metadata "severity" (.str ""))
    startedAt := asStr (PyDict.getD metadata "started_at" (.str ""))
    requiresHumanApproval :=
      (PyDict.getD values "requires_human_approval" (.bool false)).truthy
    approvalGranted :=
      let granted := PyDict.getD values "approval_granted" .null
      if isNone granted then none else some granted.truthy }

theorem extractSummary_ok {incidentId : String} {values : PyDict} {summary : IncidentSummary}
    (h : extractSummary incidentId values = .ok summary) :
    summary.incidentId = incidentId ∧ summary.status = statusOf values := by
  unfold extractSummary at h
  simp only [bind, Except.bind, pure, Except.pure] at h
  repeat' split at h
  all_goals cases h
  all_goals exact ⟨rfl, rfl⟩

end Api
end AutoSRE
