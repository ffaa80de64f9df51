import AutoSRE.Tools.Registry
import AutoSRE.Python.Search

/-!
# The tracing span of a tool call (`tools/registry.py`)

- **Redaction** (`isSensitiveKey`, `scrubSensitive`, `stableJson`). What becomes of the arguments
  before they are written to the span.
- **The span** (`executeSpan`). Every attribute, status and exception event that `execute` and the
  context manager around it write, on each of its exits. What is written before the handler is
  called is `inputEvents`; the span ends as `ToolRegistry.execute` does (`executeSpan_end`).
- **Noninterference** (`SameButSecrets`, `Noninterfering`). Two argument mappings that differ only
  under sensitive keys have the same scrubbed parameters (`scrubSensitive_congr`). A validation
  error is written as it is, so the spans agree exactly when the input model answers both mappings
  alike (`noninterfering_iff`).
-/

namespace AutoSRE
namespace Tools

open Py

/-! ## Redaction -/

/-- `_SENSITIVE_KEYS`. -/
def sensitiveKeys : List String :=
  ["password", "passwd", "secret", "token", "access_token", "refresh_token", "id_token", "api_key",
    "apikey", "authorization", "proxy_authorization", "cookie", "set_cookie", "private_key",
    "client_secret", "access_key", "secret_key", "credential", "credentials"]

/-- `_is_sensitive_key`, of a string. -/
def isSensitiveKey (key : String) : Bool :=
  let normalized := (lowerChars (stripChars key.toList)).map fun c => if c = '-' then '_' else c
  String.ofList normalized ∈ sensitiveKeys

mutual
/-- `_scrub_sensitive`. -/
def scrubSensitive : Json → Json
  | .obj d => .obj (scrubItems d)
  | .arr xs => .arr (scrubList xs)
  | v => v
/-- The items of a list, scrubbed. -/
def scrubList : List Json → List Json
  | [] => []
  | x :: xs => scrubSensitive x :: scrubList xs
/-- The items of a mapping, scrubbed: a value under a sensitive key is replaced. -/
def scrubItems : List (String × Json) → List (String × Json)
  | [] => []
  | (k, v) :: d =>
    (k, if isSensitiveKey k then .str "[REDACTED]" else scrubSensitive v) :: scrubItems d
end

mutual
/-- `json.dumps(v, sort_keys=True, separators=(",", ":"))`. -/
def compactJson : Json → String
  | .arr xs => "[" ++ ",".intercalate (compactList xs) ++ "]"
  | .obj d =>
    let items := (compactItems d).foldr Json.insertItem []
    "\x7b" ++ ",".intercalate (items.map fun p => Json.dumpStr true p.1 ++ ":" ++ p.2) ++ "\x7d"
  | v => v.dumps true true
/-- The elements of a JSON array. -/
def compactList : List Json → List String
  | [] => []
  | x :: xs => compactJson x :: compactList xs
/-- The items of a JSON object. -/
def compactItems : List (String × Json) → List (String × String)
  | [] => []
  | (k, v) :: d => (k, compactJson v) :: compactItems d
end

/-- `_stable_json`. -/
def stableJson (v : Json) : String := compactJson (scrubSensitive v)

example : stableJson (.obj [("b", .arr [.null]), ("Api-Key ", .str "s3cret")]) =
    "\x7b\"Api-Key \":\"[REDACTED]\",\"b\":[null]\x7d" := by decide +kernel

/-! ## The span -/

/-- What is written to a span. -/
inductive SpanEvent where
  | attribute (key value : String)
  /-- An exception event: the class, the text and the traceback of the exception. -/
  | exception (exc : PyExc)
  | ok
  | error (description : String)
  deriving DecidableEq

/-- How the handler of a tool ends. -/
inductive HandlerEnd where
  | returned (v : Json)
  /-- `ToolExecutionError(tool_name, original)`. -/
  | rejected (toolName : String) (original : PyExc)
  | raised (exc : PyExc) (other : ∀ m, exc ≠ .toolExecutionError m)
  | cancelled

/-- The end of the handler as `ToolRegistry.execute` takes it. -/
def HandlerEnd.outcome : HandlerEnd → Outcome
  | .returned v => .returned v
  | .rejected toolName original => .raised (toolExecutionError toolName original)
  | .raised exc _ => .raised exc
  | .cancelled => .cancelled

/-- The attributes with which the span is started. -/
def startEvents (name : String) (args : PyDict) : List SpanEvent :=
  [.attribute "openinference.span.kind" "TOOL", .attribute "tool.name" name,
    .attribute "tool.parameters" (stableJson (.obj args))]

/-- The context manager writes the exception that leaves the span. -/
def escapeEvents (exc : PyExc) : List SpanEvent :=
  [.exception exc, .error (exc.className ++ ": " ++ exc.text)]

/-- Step 1: `model_validate` raised. -/
def refusalEvents (name : String) : PyExc → List SpanEvent
  | .validationError m =>
    [.exception (.validationError m), .attribute "tool.validation_error" m,
      .error "input validation failed"] ++
      escapeEvents (toolExecutionError name (.validationError m))
  | exc => escapeEvents exc

/-- What is written before the handler is called, or in place of it. -/
def inputEvents (tool : Tool) (name : String) (args : PyDict) : List SpanEvent :=
  startEvents name args ++
    match tool.inputModel.validate args with
    | .ok () => []
    | .error exc => refusalEvents name exc

/-- Step 3: the output model refused what the handler returned, with one of the three classes. -/
def outputErrorEvents (name : String) (exc : PyExc) : List SpanEvent :=
  [.exception exc, .attribute "tool.output_validation_error" exc.text,
    .error "output validation failed"] ++ escapeEvents (toolExecutionError name exc)

/-- Step 3: the output model is applied. -/
def outputEvents (tool : Tool) (name : String) (v : Json) : List SpanEvent :=
  match tool.dumpOutput v with
  | .ok out =>
    [.attribute "output.value" (stableJson out),
      .attribute "output.mime_type" "application/json", .ok]
  | .error (.validationError m) => outputErrorEvents name (.validationError m)
  | .error (.typeError m) => outputErrorEvents name (.typeError m)
  | .error (.valueError m) => outputErrorEvents name (.valueError m)
  | .error exc => escapeEvents exc

/-- Steps 2 and 3: what is written when the handler ends. -/
def handlerEvents (tool : Tool) (name : String) : HandlerEnd → List SpanEvent
  | .returned v => outputEvents tool name v
  | .rejected toolName original =>
    [.exception (toolExecutionError toolName original), .attribute "tool.error" original.repr,
      .error "tool rejected execution"] ++ escapeEvents (toolExecutionError toolName original)
  | .raised exc _ =>
    [.exception exc, .attribute "tool.error" exc.repr, .error "tool handler failed"] ++
      escapeEvents (toolExecutionError name exc)
  -- A cancellation is no `Exception`.
  | .cancelled => []

/-- The span of `execute` when the handler, if it is called, ends with `e`; an unknown tool has
none. -/
def ToolRegistry.executeSpan (r : ToolRegistry) (name : String) (args : PyDict) (e : HandlerEnd) :
    List SpanEvent :=
  match r.get name with
  | .error _ => []
  | .ok tool =>
    inputEvents tool name args ++
      match tool.inputModel.validate args with
      | .ok () => handlerEvents tool name e
      | .error _ => []

/-- What is written last, when the call ends with `o`. -/
def endEvents : Outcome → List SpanEvent
  | .returned _ => [.ok]
  | .raised exc => escapeEvents exc
  | .cancelled => []

theorem refusalEvents_end (name : String) (exc : PyExc) :
    ∃ pre, refusalEvents name exc = pre ++ escapeEvents
      (match exc with
        | .validationError m => toolExecutionError name (.validationError m)
        | exc => exc) := by
  cases exc with
  | validationError m => exact ⟨_, rfl⟩
  | _ => exact ⟨[], rfl⟩

theorem outputEvents_end (tool : Tool) (name : String) (v : Json) :
    ∃ pre, outputEvents tool name v =
      pre ++ endEvents (ToolRegistry.validateOutput tool name v) := by
  unfold outputEvents ToolRegistry.validateOutput
  cases tool.dumpOutput v with
  | ok out => exact ⟨[_, _], rfl⟩
  | error exc =>
    cases exc with
    | validationError m => exact ⟨[_, _, _], rfl⟩
    | typeError m => exact ⟨[_, _, _], rfl⟩
    | valueError m => exact ⟨[_, _, _], rfl⟩
    | _ => exact ⟨[], rfl⟩

theorem handlerEvents_end (tool : Tool) (name : String) (e : HandlerEnd) :
    ∃ pre, handlerEvents tool name e =
      pre ++ endEvents (ToolRegistry.afterHandler tool name e.outcome) := by
  cases e with
  | returned v => exact outputEvents_end tool name v
  | rejected toolName original => exact ⟨[_, _, _], rfl⟩
  | raised exc other =>
    cases exc with
    | toolExecutionError m => exact absurd rfl (other m)
    | _ => exact ⟨[_, _, _], rfl⟩
  | cancelled => exact ⟨[], rfl⟩

theorem inputEvents_accepted {tool : Tool} {args : PyDict}
    (hv : tool.inputModel.validate args = .ok ()) (name : String) :
    inputEvents tool name args = startEvents name args := by
  rw [inputEvents, hv, List.append_nil]

theorem inputEvents_refused {tool : Tool} {args : PyDict} {exc : PyExc}
    (hv : tool.inputModel.validate args = .error exc) (name : String) :
    inputEvents tool name args = startEvents name args ++ refusalEvents name exc := by
  rw [inputEvents, hv]

theorem executeSpan_accepted {r : ToolRegistry} {name : String} {tool : Tool} {args : PyDict}
    (hget : r.get name = .ok tool) (hv : tool.inputModel.validate args = .ok ())
    (e : HandlerEnd) :
    r.executeSpan name args e = startEvents name args ++ handlerEvents tool name e := by
  simp only [ToolRegistry.executeSpan, hget, hv, inputEvents_accepted hv]

theorem executeSpan_refused {r : ToolRegistry} {name : String} {tool : Tool} {args : PyDict}
    {exc : PyExc} (hget : r.get name = .ok tool)
    (hv : tool.inputModel.validate args = .error exc) (e : HandlerEnd) :
    r.executeSpan name args e = startEvents name args ++ refusalEvents name exc := by
  simp only [ToolRegistry.executeSpan, hget, hv, inputEvents_refused hv, List.append_nil]

/-- The span of a registered tool's call ends as the call does. -/
theorem executeSpan_end {r : ToolRegistry} {name : String} {tool : Tool}
    (hget : r.get name = .ok tool) (args : PyDict) (e : HandlerEnd) :
    ∃ pre, r.executeSpan name args e = pre ++ endEvents (r.execute name args e.outcome) := by
  cases hv : tool.inputModel.validate args with
  | ok u =>
    obtain ⟨pre, hpre⟩ := handlerEvents_end tool name e
    refine ⟨startEvents name args ++ pre, ?_⟩
    simp only [executeSpan_accepted hget hv, ToolRegistry.execute, hget, hv, hpre,
      List.append_assoc]
  | error exc =>
    obtain ⟨pre, hpre⟩ := refusalEvents_end name exc
    refine ⟨startEvents name args ++ pre, ?_⟩
    rw [executeSpan_refused hget hv, hpre, List.append_assoc]
    cases exc <;> simp only [ToolRegistry.execute, hget, hv, endEvents]

/-! ## Noninterference -/

mutual
/-- The values differ only in what is stored under sensitive keys. -/
inductive SameButSecrets : Json → Json → Prop where
  | refl (v : Json) : SameButSecrets v v
  | arr {xs ys : List Json} (h : SameItems xs ys) : SameButSecrets (.arr xs) (.arr ys)
  | obj {d e : List (String × Json)} (h : SameFields d e) : SameButSecrets (.obj d) (.obj e)
/-- The same of the items of two lists. -/
inductive SameItems : List Json → List Json → Prop where
  | nil : SameItems [] []
  | cons {x y : Json} {xs ys : List Json} (h : SameButSecrets x y) (hs : SameItems xs ys) :
    SameItems (x :: xs) (y :: ys)
/-- The same of the items of two mappings; under a sensitive key the values are any. -/
inductive SameFields : List (String × Json) → List (String × Json) → Prop where
  | nil : SameFields [] []
  | secret {k : String} {v w : Json} {d e : List (String × Json)}
    (hk : isSensitiveKey k = true) (hs : SameFields d e) : SameFields ((k, v) :: d) ((k, w) :: e)
  | plain {k : String} {v w : Json} {d e : List (String × Json)} (h : SameButSecrets v w)
    (hs : SameFields d e) : SameFields ((k, v) :: d) ((k, w) :: e)
end

mutual
/-- Redaction removes the difference. -/
theorem scrubSensitive_congr : ∀ {v w : Json}, SameButSecrets v w →
    scrubSensitive v = scrubSensitive w
  | _, _, .refl _ => rfl
  | .arr _, .arr _, .arr h => congrArg Json.arr (scrubList_congr h)
  | .obj _, .obj _, .obj h => congrArg Json.obj (scrubItems_congr h)
theorem scrubList_congr : ∀ {xs ys : List Json}, SameItems xs ys → scrubList xs = scrubList ys
  | [], [], .nil => rfl
  | _ :: _, _ :: _, .cons h hs => by
    rw [scrubList, scrubList, scrubSensitive_congr h, scrubList_congr hs]
theorem scrubItems_congr : ∀ {d e : List (String × Json)}, SameFields d e →
    scrubItems d = scrubItems e
  | [], [], .nil => rfl
  | (k, _) :: _, _ :: _, .secret hk hs => by
    rw [scrubItems, scrubItems, if_pos hk, if_pos hk, scrubItems_congr hs]
  | (k, _) :: _, _ :: _, .plain h hs => by
    rw [scrubItems, scrubItems, scrubSensitive_congr h, scrubItems_congr hs]
end

/-- The spans of two calls of a tool agree: up to the handler, and, when the handler is called by
both and ends alike, to the end. -/
structure Noninterfering (r : ToolRegistry) (name : String) (tool : Tool) (a b : PyDict) :
    Prop where
  input : inputEvents tool name a = inputEvents tool name b
  span : ∀ e, r.executeSpan name a e = r.executeSpan name b e

theorem startEvents_congr {a b : PyDict} (h : SameButSecrets (.obj a) (.obj b)) (name : String) :
    startEvents name a = startEvents name b := by
  rw [startEvents, startEvents, stableJson, stableJson, scrubSensitive_congr h]

/-- Whatever is raised by the input model is the first event after the attributes. -/
theorem refusalEvents_head (name : String) (exc : PyExc) :
    (refusalEvents name exc).head? = some (.exception exc) := by
  cases exc <;> rfl

theorem refusalEvents_ne_nil (name : String) (exc : PyExc) : refusalEvents name exc ≠ [] := by
  intro h
  have hhead := refusalEvents_head name exc
  rw [h] at hhead
  cases hhead

/-- What is written before the handler tells how the input model answered. -/
theorem validate_eq_of_inputEvents {name : String} {tool : Tool} {a b : PyDict}
    (hstart : startEvents name a = startEvents name b)
    (hin : inputEvents tool name a = inputEvents tool name b) :
    tool.inputModel.validate a = tool.inputModel.validate b := by
  cases ha : tool.inputModel.validate a with
  | ok u =>
    cases hb : tool.inputModel.validate b with
    | ok u' => rfl
    | error exc =>
      rw [inputEvents_accepted ha, inputEvents_refused hb, hstart,
        List.self_eq_append_right] at hin
      exact absurd hin (refusalEvents_ne_nil name exc)
  | error exc =>
    cases hb : tool.inputModel.validate b with
    | ok u =>
      rw [inputEvents_refused ha, inputEvents_accepted hb, hstart,
        List.append_right_eq_self] at hin
      exact absurd hin (refusalEvents_ne_nil name exc)
    | error exc' =>
      rw [inputEvents_refused ha, inputEvents_refused hb, hstart,
        List.append_cancel_left_eq] at hin
      have hhead := refusalEvents_head name exc
      rw [hin, refusalEvents_head] at hhead
      cases hhead
      rfl

/-- For mappings that differ only under sensitive keys, the spans agree exactly when the input
model answers both alike. -/
theorem noninterfering_iff {r : ToolRegistry} {name : String} {tool : Tool} {a b : PyDict}
    (hget : r.get name = .ok tool) (h : SameButSecrets (.obj a) (.obj b)) :
    Noninterfering r name tool a b ↔
      tool.inputModel.validate a = tool.inputModel.validate b := by
  have hstart := startEvents_congr h name
  constructor
  · intro hn
    exact validate_eq_of_inputEvents hstart hn.input
  · intro hv
    cases hb : tool.inputModel.validate b with
    | ok u =>
      have ha := hv.trans hb
      exact ⟨by rw [inputEvents_accepted ha, inputEvents_accepted hb, hstart], fun e => by
        rw [executeSpan_accepted hget ha, executeSpan_accepted hget hb, hstart]⟩
    | error exc =>
      have ha := hv.trans hb
      exact ⟨by rw [inputEvents_refused ha, inputEvents_refused hb, hstart], fun e => by
        rw [executeSpan_refused hget ha, executeSpan_refused hget hb, hstart]⟩

/-! ## A tool without parameters -/

/-- The text of the validation error of a model without fields: it has each value that it forbids
(the links to the documentation are left out). -/
def extraForbidden (model : String) (args : PyDict) : String :=
  toString args.length ++ " validation error for " ++ model ++ String.join (args.map fun p =>
    "\n" ++ p.1 ++ "\n  Extra inputs are not permitted [type=extra_forbidden, input_value=" ++
      p.2.repr ++ ", input_type=" ++ p.2.typeName ++ "]")

/-- `GetConnectionStatsInput`, which has no fields, as a `ToolInputModel`. -/
def getConnectionStatsInput : InputModel where
  validate
    | [] => .ok ()
    | args => .error (.validationError (extraForbidden "GetConnectionStatsInput" args))
  schema := .ok ⟨[], []⟩

/-- `get_connection_stats`. -/
def getConnectionStats : Tool where
  name := "get_connection_stats"
  description :=
    "Return PostgreSQL client connection counts and utilisation against max_connections."
  inputModel := getConnectionStatsInput
  dumpOutput := .ok
  name_ok := by decide
  description_ne := by decide
  tier_nonneg := by decide
  tier_le := by decide

/-- A registry with `get_connection_stats`. -/
def statsRegistry : ToolRegistry where
  tools := [getConnectionStats]
  nodup := by simp

/-- The arguments with a password. -/
def passwordArgs (password : String) : PyDict := [("password", .str password)]

theorem passwordArgs_same (p q : String) :
    SameButSecrets (.obj (passwordArgs p)) (.obj (passwordArgs q)) :=
  .obj (.secret (by decide +kernel) .nil)

/-- A tool that takes all arguments keeps the password out of its span. -/
theorem noninterfering_dummy :
    Noninterfering ⟨[dummyTool "login" 0], by simp⟩ "login" (dummyTool "login" 0)
      (passwordArgs "hunter2") (passwordArgs "hunter3") :=
  (noninterfering_iff rfl (passwordArgs_same _ _)).mpr rfl

/-- The password stands in the validation error, and so in the span. -/
theorem password_in_span :
    ∃ (r : ToolRegistry) (name : String) (tool : Tool) (a b : PyDict), r.get name = .ok tool ∧
      SameButSecrets (.obj a) (.obj b) ∧ ¬ Noninterfering r name tool a b := by
  refine ⟨statsRegistry, "get_connection_stats", getConnectionStats, passwordArgs "hunter2",
    passwordArgs "hunter3", rfl, passwordArgs_same _ _, fun h => ?_⟩
  have hv := validate_eq_of_inputEvents (startEvents_congr (passwordArgs_same _ _) _) h.input
  have htext : extraForbidden "GetConnectionStatsInput" (passwordArgs "hunter2") =
      extraForbidden "GetConnectionStatsInput" (passwordArgs "hunter3") := by
    injection hv with hv
    injection hv
  revert htext
  decide +kernel

end Tools
end AutoSRE
