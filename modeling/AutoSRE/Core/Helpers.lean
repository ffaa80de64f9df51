import AutoSRE.Core.State

/-!
# Helpers of the graph (`core/graph_helpers.py`)

- **Idempotency** (`isActionAlreadyExecuted`, `countActionAttempts`). A mutating tool is compared
  by name, any other tool by name and arguments.
- **Answers of the language model** (`parseJsonResponse`). The value that the JSON extraction
  found is a `dict`, or a list where the stage allows one.
- **Hypotheses** (`asConfidence`, `normalizeHypotheses`, `topHypothesis`). A hypothesis is a
  `dict`; the top one is the first with the largest valid confidence. `Floatable` is the condition
  under which the nodes can read its confidence with `float`.
-/

namespace AutoSRE
namespace Core

open Py

/-! ## Idempotency -/

/-- `MUTATING_TOOLS`. -/
def mutatingTools : List String :=
  ["restart_deployment", "scale_deployment", "delete_pod", "terminate_backend",
    "delete_valkey_key", "set_feature_flag"]

/-- `is_action_already_executed`. -/
def isActionAlreadyExecuted (toolName : String) (toolArgs : PyDict)
    (executedActions : List ExecutedAction) : Bool :=
  if toolName = "" then false
  else executedActions.any fun action =>
    action.toolName == toolName &&
      (toolName ∈ mutatingTools || Json.pyEq (.obj action.toolArgs) (.obj toolArgs))

/-- `count_action_attempts`. -/
def countActionAttempts (toolName : String) (executedActions : List ExecutedAction) : Nat :=
  if toolName = "" then 0 else executedActions.countP fun action => action.toolName == toolName

/-! ## Answers of the language model -/

/-- `parse_json_response`, of the value found in the response; `none` is a response that is empty
or not JSON. -/
def parseJsonResponse (stage : String) (allowArray : Bool) : Option Json → Except PyExc PyDict
  | some (.obj d) => .ok d
  | some (.arr xs) =>
    if allowArray then .ok [("items", .arr xs)]
    else .error (.valueError (stage ++ " response must be a JSON object, got a list"))
  | some v => .error (.valueError (stage ++ " response must be a JSON object, got " ++ v.typeName))
  | none => .error (.valueError (stage ++ " response was not valid JSON"))

/-- `value or default`. -/
def orElse (value : Option Json) (default : Json) : Json :=
  match value with
  | some v => if v.truthy then v else default
  | none => default

/-- `safe_json(value, max_chars=n)`. -/
def safeJson (value : Json) (n : Nat) : String :=
  String.ofList ((value.dumps false true).toList.take n)

/-! ## Hypotheses -/

/-- `as_confidence`. -/
def asConfidence (value : Json) : Except PyExc PyFloat :=
  match value with
  | .bool _ => .error (.valueError "confidence must be numeric, not bool")
  | v =>
    match v.toFloat with
    | .error _ => .error (.valueError "confidence must be numeric")
    | .ok c =>
      if PyFloat.le .zero c && PyFloat.le c (.finite 1) then .ok c
      else .error (.valueError "confidence must be between 0 and 1")

/-- `_VALID_STATUSES`. -/
def validStatuses : List String := ["proposed", "confirmed", "rejected"]

/-- The text of a field, or a default when it is missing. -/
def fieldText (d : PyDict) (key default : String) : String :=
  match PyDict.getD d key .null with
  | .null => default
  | v => strip v.toStr

/-- One hypothesis of `normalize_hypotheses`, at a 1-based index. -/
def normalizeHypothesis (index : Nat) (item : Json) : Except PyExc PyDict :=
  match item.asDict? with
  | none => .error (.valueError ("hypothesis " ++ toString index ++ " must be an object, got " ++
      item.typeName))
  | some d =>
    let id := fieldText d "id" ("H" ++ toString index)
    let description := fieldText d "description" ""
    if id = "" ∨ description = "" then
      .error (.valueError ("hypothesis " ++ toString index ++ " is missing id or description"))
    else
      match PyDict.getD d "evidence" (.arr []) with
      | .arr values =>
        let rawStatus := strip (PyDict.getD d "status" (.str "proposed")).toStr
        let status := if rawStatus ∈ validStatuses then rawStatus else "proposed"
        match asConfidence (PyDict.getD d "confidence" (.float .zero)) with
        | .ok confidence => .ok
          [("id", .str id), ("description", .str description), ("confidence", .float confidence),
            ("evidence", .arr (values.map fun v => .str v.toStr)), ("status", .str status)]
        | .error exc => .error exc
      | _ => .error (.valueError ("hypothesis " ++ toString index ++ " evidence must be an array"))

/-- The loop of `normalize_hypotheses`, from an index on. -/
def normalizeFrom : Nat → List Json → Except PyExc (List PyDict)
  | _, [] => .ok []
  | index, item :: items =>
    match normalizeHypothesis index item with
    | .error exc => .error exc
    | .ok h =>
      match normalizeFrom (index + 1) items with
      | .error exc => .error exc
      | .ok hs => .ok (h :: hs)

/-- `normalize_hypotheses`, of a list. -/
def normalizeHypotheses (raw : List Json) : Except PyExc (List PyDict) :=
  match normalizeFrom 1 raw with
  | .ok [] => .error (.valueError "LLM returned no hypotheses")
  | r => r

/-- `_normalize_hypotheses_safe`. -/
def normalizeHypothesesSafe (raw : Json) (fallback : List PyDict) : List PyDict :=
  match raw with
  | .arr items =>
    match normalizeHypotheses items with
    | .ok hs => hs
    | .error _ => fallback
  | _ => fallback

/-- `_coerce_dict_list`. -/
def coerceDictList : Json → List PyDict
  | .arr xs => xs.filterMap Json.asDict?
  | _ => []

/-- `_confidence_value`. -/
def confidenceValue (hypothesis : PyDict) : PyFloat :=
  match asConfidence (PyDict.getD hypothesis "confidence" (.float .zero)) with
  | .ok c => c
  | .error _ => .zero

/-- `max(best :: hypotheses, key=_confidence_value)`: the first of the largest. -/
def maxHypothesis (best : PyDict) : List PyDict → PyDict
  | [] => best
  | h :: hs =>
    maxHypothesis (if PyFloat.lt (confidenceValue best) (confidenceValue h) then h else best) hs

/-- `top_hypothesis`. -/
def topHypothesis : List PyDict → Option PyDict
  | [] => none
  | h :: hs => some (maxHypothesis h hs)

/-- `float(best.get("confidence", 0.0) or 0.0)`. -/
def readConfidence (best : PyDict) : Except PyExc PyFloat :=
  (orElse (PyDict.get? best "confidence") (.float .zero)).toFloat

/-- The confidence of the top hypothesis, `0.0` when there is none. -/
def topConfidence (hypotheses : List PyDict) : Except PyExc PyFloat :=
  match topHypothesis hypotheses with
  | some best => readConfidence best
  | none => .ok .zero

/-- The nodes can read the confidence of the top hypothesis. -/
def Floatable (hypotheses : List PyDict) : Prop := ∃ c, topConfidence hypotheses = .ok c

theorem floatable_nil : Floatable [] := ⟨_, rfl⟩

end Core
end AutoSRE
