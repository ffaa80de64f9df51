import AutoSRE.Core.Helpers
import AutoSRE.Tools.Registry

/-!
# Category tables and tool arguments (`core/graph_nodes.py`)

- **Tables.** `fallbackActions` is `FALLBACK_ACTIONS`, `forbiddenTools` is
  `_CATEGORY_FORBIDDEN_TOOLS`; a category is looked up by its name.
- **Arguments.** `clampNamespace` enforces the incident's namespace on the tools that take one,
  `argsSatisfySchema` is the schema guard, `buildFallbackArgs` completes a fallback's arguments from
  the incident, and `defaultArgs` are the arguments of an investigation without the language model.
-/

namespace AutoSRE
namespace Core

open Py Tools

/-! ## Tables -/

/-- A template of `FALLBACK_ACTIONS`. -/
structure FallbackAction where
  toolName : String
  toolArgs : PyDict
  riskTier : Int

/-- A template whose only argument is the reason. -/
def reasonOnly (toolName reason : String) (riskTier : Int) : FallbackAction :=
  { toolName, toolArgs := [("reason", .str reason)], riskTier }

/-- `FALLBACK_ACTIONS`. -/
def fallbackTable : List (String × FallbackAction) :=
  [("webhook_dedup", reasonOnly "none"
      "Duplicate webhook storm; deduplication is working as expected" 0),
    ("false_positive", reasonOnly "none" "False positive alert; no remediation needed" 0),
    ("prohibited_action", reasonOnly "none" ("Prohibited action on system namespace; policy " ++
      "enforcement — no remediation needed") 0),
    ("crash_loop", reasonOnly "restart_deployment"
      "CrashLoopBackOff detected; rolling restart to clear stuck state" 1),
    ("memory_pressure", reasonOnly "restart_deployment"
      "Memory pressure detected; restart to reclaim memory" 1),
    ("pod_oom", reasonOnly "restart_deployment"
      "Container OOMKilled; restart to recover and flag for limit review" 1),
    ("stale_pod", reasonOnly "restart_deployment"
      "Pod stuck in Terminating; rolling restart replaces stuck pod" 1),
    ("image_pull_error", reasonOnly "restart_deployment"
      "ImagePullBackOff detected; restore previous working image tag" 1),
    ("http_errors", reasonOnly "restart_deployment"
      "Upstream timeout cascade; restart to clear stuck connections" 1),
    ("db_connection_exhaustion", reasonOnly "terminate_backend"
      "Connection pool exhaustion; terminate idle-in-transaction backends" 1),
    ("cache_poison_key",
      { toolName := "delete_valkey_key", riskTier := 1
        toolArgs := [("key", .str "poison:session:abc123"),
          ("reason", .str "Cache poisoning detected; delete corrupted key")] }),
    ("consumer_lag", reasonOnly "restart_deployment"
      "Consumer group lag increasing; restart consumers to recover" 1),
    ("cascading_failure", reasonOnly "restart_deployment"
      "Cascading failure; restart primary service to break the chain" 1),
    ("cpu_saturation",
      { toolName := "scale_deployment", riskTier := 2
        toolArgs := [("replicas", .int 4),
          ("reason", .str "CPU saturation due to high traffic; horizontal scaling required")] }),
    ("cache_eviction", reasonOnly "flush_all"
      "Valkey eviction under memory pressure; FLUSHALL to reclaim memory" 2),
    ("resource_quota",
      { toolName := "scale_deployment", riskTier := 2
        toolArgs := [("replicas", .int 2),
          ("reason", .str "Resource quota exceeded; scale down to fit within quota limits")] })]

/-- `FALLBACK_ACTIONS.get(category)`. -/
def fallbackActions (category : String) : Option FallbackAction := fallbackTable.lookup category

/-- `_CATEGORY_FORBIDDEN_TOOLS`. -/
def forbiddenTable : List (String × List String) :=
  [("cache_eviction", ["restart_deployment"]),
    ("db_connection_exhaustion", ["restart_deployment"]),
    ("cpu_saturation", ["restart_deployment", "delete_pod"]),
    ("pod_oom", ["scale_deployment"]),
    ("memory_pressure", ["scale_deployment"])]

/-- `_CATEGORY_FORBIDDEN_TOOLS.get(category, frozenset())`. -/
def forbiddenTools (category : String) : List String := (forbiddenTable.lookup category).getD []

/-- The template of a category is in the table. -/
theorem mem_fallbackTable {category : String} {fb : FallbackAction}
    (h : fallbackActions category = some fb) : (category, fb) ∈ fallbackTable := by
  obtain ⟨l₁, l₂, ht, -⟩ := List.lookup_eq_some_iff.mp h
  rw [ht]
  simp

/-- Every template that names a tool proposes it at tier 1 or 2, and with a name. -/
theorem fallbackActions_tier {category : String} {fb : FallbackAction}
    (h : fallbackActions category = some fb) (hn : fb.toolName ≠ "none") :
    1 ≤ fb.riskTier ∧ fb.riskTier ≤ 2 ∧ fb.toolName ≠ "" := by
  have hall : ∀ p ∈ fallbackTable, p.2.toolName ≠ "none" →
      1 ≤ p.2.riskTier ∧ p.2.riskTier ≤ 2 ∧ p.2.toolName ≠ "" := by
    simp [fallbackTable, reasonOnly]
  exact hall _ (mem_fallbackTable h) hn

/-! ## Incident metadata -/

/-- `value.get(key, default)` when `value` is a `dict`, else `default`. -/
def dictGetD (value : Option Json) (key : String) (default : Json) : Json :=
  match value with
  | some (.obj d) => PyDict.getD d key default
  | _ => default

/-- The category as `propose_node` reads it; a value that is not a string is in no table, and
cannot be looked up if it is unhashable. -/
def proposeCategory (metadata : PyDict) : Except PyExc String :=
  match dictGetD (PyDict.get? metadata "labels") "category" (.str "") with
  | .str category => .ok category
  | v =>
    if v.hashable then .ok ""
    else .error (.typeError ("cannot use '" ++ v.typeName ++
      "' as a dict key (unhashable type: '" ++ v.typeName ++ "')"))

/-- The category as `triage_node` reads it; the text of another value is in no table. -/
def triageCategory (metadata : PyDict) : String :=
  match dictGetD (PyDict.get? metadata "labels") "category" (.str "") with
  | .str category => category
  | _ => ""

/-- `str(metadata.get(key, ""))`. -/
def metadataText (metadata : PyDict) (key : String) : String :=
  (PyDict.getD metadata key (.str "")).toStr

/-- The namespace as `investigate_node` reads it. -/
def investigateNamespace (metadata : PyDict) : Option String :=
  match PyDict.get? metadata "namespace" with
  | some v => if v.truthy then some v.toStr else none
  | none => none

/-- The namespace as `propose_node` reads it. -/
def proposeNamespace (metadata : PyDict) : Option String :=
  match PyDict.get? metadata "namespace" with
  | some (.str ns) => some ns
  | _ => none

/-! ## Arguments -/

/-- `_coerce_tool_name`. -/
def coerceToolName : Option Json → Option String
  | some (.str s) => if strip s = "" then none else some (strip s)
  | _ => none

/-- `_TOOLS_WITH_NAMESPACE`. -/
def toolsWithNamespace : List String :=
  ["list_pods", "get_pod_events", "get_pod_logs", "get_deployment_status", "get_pod_metrics",
    "restart_deployment", "scale_deployment", "delete_pod"]

/-- `_clamp_namespace`, for a tool named by a string. -/
def clampNamespace (toolArgs : PyDict) (incidentNs : Option String) (toolName : String) : PyDict :=
  match incidentNs with
  | none => toolArgs
  | some ns =>
    if toolName ∈ toolsWithNamespace then PyDict.set toolArgs "namespace" (.str ns) else toolArgs

/-- `_clamp_namespace`, for any value in the place of the name: an unhashable one cannot be looked
up. -/
def clampNamespaceOf (toolArgs : PyDict) (incidentNs : Option String) (toolName : Json) :
    Except PyExc PyDict :=
  match incidentNs, toolName with
  | ns, .str name => .ok (clampNamespace toolArgs ns name)
  | none, _ => .ok toolArgs
  | some _, v =>
    if v.hashable then .ok toolArgs
    else .error (.typeError ("cannot use '" ++ v.typeName ++
      "' as a set element (unhashable type: '" ++ v.typeName ++ "')"))

/-- `_args_satisfy_schema`. -/
def argsSatisfySchema (registry : ToolRegistry) (toolName : String) (toolArgs : PyDict) : Bool :=
  match registry.get toolName with
  | .error _ => false
  | .ok tool =>
    match tool.inputModel.validate toolArgs with
    | .ok () => true
    | .error _ => false

/-- `args[key] = value`, if the key is absent. -/
def setAbsent (args : PyDict) (key : String) (value : Json) : PyDict :=
  if PyDict.contains args key then args else PyDict.set args key value

/-- The pod name of the alert annotations: the first of the keys with a text that is not blank. -/
def annotatedPod (annotations : Option Json) : Option String :=
  ["pod_name", "pod", "stuck_pod", "target_pod"].findSome? fun key =>
    match dictGetD annotations key .null with
    | .str value => if strip value = "" then none else some (strip value)
    | _ => none

/-- `_build_fallback_args`. -/
def buildFallbackArgs (fallback : FallbackAction) (metadata : PyDict) : PyDict :=
  let toolName := fallback.toolName
  let service := strip (metadataText metadata "service")
  let ns := strip (metadataText metadata "namespace")
  let args := fallback.toolArgs
  -- 1. The deployment name is the service.
  let args :=
    if toolName ∈ ["restart_deployment", "scale_deployment"] ∧ service ≠ "" then
      setAbsent args "name" (.str service)
    else args
  -- 2. A pod name comes from the annotations.
  let args :=
    if toolName = "delete_pod" then
      match annotatedPod (PyDict.get? metadata "annotations") with
      | some pod => setAbsent args "name" (.str pod)
      | none => args
    else args
  -- 3. The namespace.
  let args :=
    if toolName ∈ toolsWithNamespace ∧ ns ≠ "" then PyDict.set args "namespace" (.str ns) else args
  -- 4. The replica count.
  let args := if toolName = "scale_deployment" then setAbsent args "replicas" (.int 2) else args
  -- 5. The reason.
  if (PyDict.getD args "reason" .null).truthy then args
  else PyDict.set args "reason" (.str ("Auto-remediation for " ++ toolName))

/-- The argument of a required property, without the language model. -/
def defaultArg (schema : InputSchema) (incidentNs : Option String) (service prop : String) :
    Option Json :=
  match prop, incidentNs with
  | "namespace", some ns => some (.str ns)
  | _, _ =>
    if prop ∈ ["name", "pod_name"] ∧ service ≠ "" then some (.str service)
    else if prop = "key" ∧ service ≠ "" then some (.str (service ++ ":*"))
    else if prop = "stream_key" ∧ service ≠ "" then some (.str ("rivulet." ++ service ++ ".in"))
    else PyDict.get? schema.defaults prop

/-- The arguments of an investigation without the language model. -/
def defaultArgs (schema : InputSchema) (incidentNs : Option String) (service : String) : PyDict :=
  schema.required.foldl (fun args prop =>
    match defaultArg schema incidentNs service prop with
    | some v => PyDict.set args prop v
    | none => args) []

end Core
end AutoSRE
