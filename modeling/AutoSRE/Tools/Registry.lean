import AutoSRE.Python.Render

/-!
# The tool registry (`tools/registry.py`)

A `Tool` carries what `Tool.__post_init__` checks, a `ToolRegistry` that its names are unique.
`ToolRegistry.execute` validates the arguments, awaits the handler and validates the output; how
the handler ends is a choice of the environment (`Outcome`). The input model and the output model
of a tool are parameters: what `model_validate` accepts, and the JSON schema that the registry
exports.
-/

namespace AutoSRE
namespace Tools

open Py

/-- How an awaited call ends. -/
inductive Outcome where
  | returned (v : Json)
  | raised (exc : PyExc)
  | cancelled

/-- What the agent reads of a JSON schema: the required properties, and the defaults. -/
structure InputSchema where
  required : List String
  defaults : PyDict

/-- An input model. -/
structure InputModel where
  /-- `model_validate`, an error when it raises. -/
  validate : PyDict → Except PyExc Unit
  /-- `model_json_schema`, an error when it raises. -/
  schema : Except PyExc InputSchema

/-- A character of a tool name. -/
def isToolNameChar (c : Char) : Bool :=
  ('A' ≤ c && c ≤ 'Z') || ('a' ≤ c && c ≤ 'z') || ('0' ≤ c && c ≤ '9') || c == '_' || c == '-'

/-- `_TOOL_NAME_RE` matches the whole name. -/
def toolNameOk (name : String) : Bool :=
  0 < name.toList.length && name.toList.length ≤ 64 && name.toList.all isToolNameChar

/-- A registered tool. -/
structure Tool where
  name : String
  description : String
  inputModel : InputModel
  /-- `model_validate` and `model_dump` of the output model. -/
  dumpOutput : Json → Except PyExc Json
  riskTier : Int := 0
  name_ok : toolNameOk name = true
  description_ne : description ≠ ""
  tier_nonneg : 0 ≤ riskTier
  tier_le : riskTier ≤ 4

/-- The tools of a registry, in registration order, with unique names. -/
structure ToolRegistry where
  tools : List Tool
  nodup : (tools.map Tool.name).Nodup

/-- `ToolExecutionError(tool_name, original)`. -/
def toolExecutionError (name : String) (original : PyExc) : PyExc :=
  .toolExecutionError ("Tool '" ++ name ++ "' failed: " ++ original.repr)

namespace ToolRegistry

/-- `get`. -/
def get (r : ToolRegistry) (name : String) : Except PyExc Tool :=
  match r.tools.find? fun t => t.name == name with
  | some tool => .ok tool
  | none => .error (.toolNotFoundError ("Tool '" ++ name ++ "' is not registered"))

/-- A new tool is refused when its name is taken (`register`). -/
def register (r : ToolRegistry) (tool : Tool) : Except PyExc ToolRegistry :=
  if h : tool.name ∈ r.tools.map Tool.name then
    .error (.exception "ToolError"
      ("Tool '" ++ tool.name ++ "' is already registered; tool names must be unique"))
  else
    .ok { tools := r.tools ++ [tool]
          nodup := by
            rw [List.map_append, List.nodup_append]
            refine ⟨r.nodup, by simp, fun a ha b hb hab => h ?_⟩
            simp only [List.map_cons, List.map_nil, List.mem_singleton] at hb
            exact hb ▸ hab ▸ ha }

/-- Step 3 of `execute`: the output model is applied to what the handler returned. -/
def validateOutput (tool : Tool) (name : String) (v : Json) : Outcome :=
  match tool.dumpOutput v with
  | .ok out => .returned out
  | .error (.validationError m) => .raised (toolExecutionError name (.validationError m))
  | .error (.typeError m) => .raised (toolExecutionError name (.typeError m))
  | .error (.valueError m) => .raised (toolExecutionError name (.valueError m))
  | .error exc => .raised exc

/-- Steps 2 and 3 of `execute`: the handler ended with `o`. -/
def afterHandler (tool : Tool) (name : String) : Outcome → Outcome
  | .returned v => validateOutput tool name v
  | .raised (.toolExecutionError m) => .raised (.toolExecutionError m)
  | .raised exc => .raised (toolExecutionError name exc)
  | .cancelled => .cancelled

/-- `execute`, when the handler ends with `o`. -/
def execute (r : ToolRegistry) (name : String) (rawArgs : PyDict) (o : Outcome) : Outcome :=
  match r.get name with
  | .error exc => .raised exc
  | .ok tool =>
    match tool.inputModel.validate rawArgs with
    | .error (.validationError m) => .raised (toolExecutionError name (.validationError m))
    | .error exc => .raised exc
    | .ok () => afterHandler tool name o

theorem get_ok {r : ToolRegistry} {name : String} {tool : Tool} (h : r.get name = .ok tool) :
    tool ∈ r.tools ∧ tool.name = name := by
  unfold get at h
  split at h
  · rename_i t ht
    cases h
    exact ⟨List.mem_of_find?_eq_some ht, by simpa using List.find?_some ht⟩
  · cases h

/-- A registered tool is found under its name. -/
theorem get_of_mem {r : ToolRegistry} {tool : Tool} (h : tool ∈ r.tools) :
    r.get tool.name = .ok tool := by
  have hfind : ∀ {ts : List Tool}, tool ∈ ts → (ts.map Tool.name).Nodup →
      (ts.find? fun t => t.name == tool.name) = some tool := by
    intro ts
    induction ts with
    | nil => intro hm; cases hm
    | cons t ts ih =>
      intro hm hd
      simp only [List.map_cons, List.nodup_cons] at hd
      rcases List.mem_cons.mp hm with rfl | hm
      · simp
      · have hne : t.name ≠ tool.name := fun he => hd.1 (he ▸ List.mem_map_of_mem hm)
        simp [hne, ih hm hd.2]
  simp [get, hfind h r.nodup]

theorem afterHandler_cancelled {tool : Tool} {name : String} {o : Outcome}
    (h : afterHandler tool name o = .cancelled) : o = .cancelled := by
  cases o with
  | cancelled => rfl
  | returned v =>
    simp only [afterHandler, validateOutput] at h
    split at h <;> cases h
  | raised exc => cases exc <;> cases h

/-- A call is cancelled only inside the handler. -/
theorem execute_cancelled {r : ToolRegistry} {name : String} {rawArgs : PyDict} {o : Outcome}
    (h : r.execute name rawArgs o = .cancelled) : o = .cancelled := by
  unfold execute at h
  split at h
  · cases h
  · split at h
    · cases h
    · cases h
    · exact afterHandler_cancelled h

/-- Only a registered tool returns. -/
theorem execute_returned {r : ToolRegistry} {name : String} {rawArgs : PyDict} {o : Outcome}
    {v : Json} (h : r.execute name rawArgs o = .returned v) : ∃ tool, r.get name = .ok tool := by
  unfold execute at h
  split at h
  · cases h
  · rename_i tool htool
    exact ⟨tool, htool⟩

end ToolRegistry

/-! ## The tools of the tests -/

/-- A dummy tool at a risk tier: it takes all arguments, and its output is what it returns. -/
def dummyTool (name : String) (tier : Nat) (hn : toolNameOk name = true := by decide)
    (ht : tier ≤ 4 := by decide) : Tool where
  name := name
  description := "dummy tool " ++ name
  inputModel := { validate := fun _ => .ok (), schema := .ok ⟨[], []⟩ }
  dumpOutput := .ok
  riskTier := tier
  name_ok := hn
  description_ne := fun h => by simpa using congrArg String.toList h
  tier_nonneg := by omega
  tier_le := by omega

end Tools
end AutoSRE
