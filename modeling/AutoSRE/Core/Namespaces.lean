import AutoSRE.Core.Repeats

/-!
# The namespace of an incident

Both nodes that select a call enforce the namespace of the incident with `_clamp_namespace`, which
does nothing without one. `investigate_node` has none when the namespace is missing or empty, and
`propose_node` when it is missing: the call then keeps the namespace that the language model gives
(`empty_namespace_escaped`). With a namespace, or when the selected calls carry it anyway
(`NamespaceKept`), every call of a tool that takes a namespace is confined to it
(`calls_confined`).
-/

namespace AutoSRE
namespace Core

open Lib Py Safety Tools

/-- The namespace of the incident is a text, or is missing. -/
def TextNamespace (metadata : PyDict) : Prop :=
  ∀ v, PyDict.get? metadata "namespace" = some v → ∃ ns, v = .str ns

/-- A thread before its first node, on any such metadata. -/
def Thread.OpenInitial (t : Thread) : Prop :=
  ∃ metadata m budget now, TextNamespace metadata ∧
    t.values = { createInitialState m budget now with incidentMetadata := metadata } ∧
    t.next = .node (routeInitialPhase t.values)

/-- The graph on any such metadata. -/
def openGraph (ctx : GraphContext) : Sys Thread Label Event where
  init := Thread.OpenInitial
  step := stepThread ctx

/-- A call of a tool that takes a namespace carries the one of the incident. -/
def InNamespace (metadata : PyDict) (name : Json) (args : PyDict) : Prop :=
  ∀ toolName, name = .str toolName → toolName ∈ toolsWithNamespace →
    PyDict.get? args "namespace" = PyDict.get? metadata "namespace"

/-- Every call of a tool is in the namespace of the incident. -/
def Confined (metadata : PyDict) (es : List Event) : Prop :=
  ∀ e ∈ es, ∀ name args, e.registryCall? = some (name, args) → InNamespace metadata name args

variable (ctx : GraphContext)

/-- A call that a node selects without a namespace to enforce carries the one of the incident. -/
structure NamespaceKept (t : Thread) (a : Label) : Prop where
  investigate : ∀ env call, a = .run env → t.next = .node .investigate → ctx.sreContext = true →
    (readOnlyTools ctx).isEmpty = false → investigateNamespace t.values.incidentMetadata = none →
    firstCall ctx env t.values = some call →
    InNamespace t.values.incidentMetadata (callName call) (callArgs call)
  propose : ∀ env confidence category sel name, a = .run env → t.next = .node .propose →
    proposeNamespace t.values.incidentMetadata = none →
    topConfidence t.values.hypotheses = .ok confidence →
    proposeCategory t.values.incidentMetadata = .ok category →
    Selected ctx env t.values confidence category sel → sel.toolName = some name →
    InNamespace t.values.incidentMetadata (.str name) sel.toolArgs

/-- The proposals that are approved or executed next are in the namespace of the incident. -/
def ProposalsConfined (t : Thread) : Prop :=
  t.next.place = .approving ∨ t.next.place = .executing →
    ∀ p ∈ t.values.proposedActions,
      InNamespace t.values.incidentMetadata (.str p.toolName) p.toolArgs

/-! ## The clamp -/

variable {ctx} {metadata args args' : PyDict} {name : String}

/-- A namespace that `investigate_node` enforces is the one of the incident. -/
theorem investigateNamespace_some (ht : TextNamespace metadata) {ns : String}
    (h : investigateNamespace metadata = some ns) :
    PyDict.get? metadata "namespace" = some (.str ns) := by
  unfold investigateNamespace at h
  split at h
  · rename_i v hv
    obtain ⟨ns', rfl⟩ := ht v hv
    split at h
    · cases h
      exact hv
    · cases h
  · cases h

/-- A namespace that `propose_node` enforces is the one of the incident. -/
theorem proposeNamespace_some {ns : String} (h : proposeNamespace metadata = some ns) :
    PyDict.get? metadata "namespace" = some (.str ns) := by
  unfold proposeNamespace at h
  split at h
  · rename_i ns' hns
    cases h
    exact hns
  · cases h

/-- The clamp puts a call into the namespace of the incident, unless there is none to enforce. -/
theorem clampNamespace_inNamespace {ns : Option String}
    (hsome : ∀ text, ns = some text → PyDict.get? metadata "namespace" = some (.str text))
    (hnone : ns = none → InNamespace metadata (.str name) args) :
    InNamespace metadata (.str name) (clampNamespace args ns name) := by
  rintro toolName htool hm
  obtain rfl : name = toolName := Json.str.inj htool
  cases hns : ns with
  | none => exact hnone hns _ rfl hm
  | some text =>
    simp only [clampNamespace, if_pos hm, PyDict.get?_set_self]
    exact (hsome text hns).symm

/-! ## The calls of a run -/

variable {t t' : Thread} {a : Label} {fs : List Event}

/-- What `investigate_node` calls is in the namespace of the incident. -/
theorem toolCall_inNamespace (ht : TextNamespace t.values.incidentMetadata)
    (hc : NamespaceKept ctx t a) (h : (graph ctx).step t a = some (t', fs)) {v : Json}
    (hm : .toolCall v args ∈ fs) : InNamespace t.values.incidentMetadata v args := by
  have hn : t.next = .node .investigate := next_of_source h hm (fun _ h => h) (by decide)
  obtain ⟨env, ha, hstep⟩ := step_node h hn
  obtain ⟨-, rfl⟩ := Prod.mk.inj hstep
  obtain ⟨hsre, htools, call, hcall, hv, hclamp⟩ :=
    investigateNode_call ctx env t.values ((List.mem_cons.mp hm).resolve_left nofun)
  rintro toolName rfl hmem
  rw [clampNamespaceOf] at hclamp
  obtain rfl := Except.ok.inj hclamp
  refine clampNamespace_inNamespace (fun text => investigateNamespace_some ht)
    (fun hnone => ?_) toolName rfl hmem
  exact hv ▸ hc.investigate env call ha hn hsre htools hnone hcall

/-- A step under the condition keeps the proposals confined. -/
theorem proposalsConfined_step (hpc : ProposalsConfined t) (hc : NamespaceKept ctx t a)
    (h : (graph ctx).step t a = some (t', fs)) : ProposalsConfined t' := by
  obtain ⟨q, rest, -, -, -, hframe⟩ := step_frame h
  intro hp p hm
  rw [hframe.metadata]
  rcases pending_step h hp with ⟨p', hpm, hprop⟩ | ⟨hplace, hnames⟩
  · obtain ⟨env, confidence, category, sel, name, ha, hn, hconf, hcat, hsel, hname, rfl, -⟩ :=
      proposed_step h hpm
    rw [hprop] at hm
    obtain rfl := List.mem_singleton.mp hm
    exact clampNamespace_inNamespace (fun text => proposeNamespace_some)
      fun hnone => hc.propose env confidence category sel name ha hn hnone hconf hcat hsel hname
  · obtain ⟨p', hm', hname, hargs⟩ := hnames p hm
    exact hname ▸ hargs ▸ hpc (.inl hplace) p' hm'

/-- Every call of a tool that takes a namespace is in the one of the incident, when the calls that
are selected without a namespace to enforce are. -/
theorem calls_confined {n : Nat} {es : List Event}
    (hr : (openGraph ctx).Run (NamespaceKept ctx) n es t) :
    Confined t.values.incidentMetadata es := by
  have hinv : (TextNamespace t.values.incidentMetadata ∧ ProposalsConfined t) ∧
      Confined t.values.incidentMetadata es := by
    refine hr.inv (I := fun es t => (TextNamespace t.values.incidentMetadata ∧
      ProposalsConfined t) ∧ Confined t.values.incidentMetadata es) (fun s hi => ?_)
      fun n es s a s' fs _ hi hc hs => ?_
    · obtain ⟨metadata, m, budget, now, htext, hv, hn⟩ := hi
      refine ⟨⟨?_, ?_⟩, fun e hm => by cases hm⟩
      · rw [hv]
        exact htext
      · rintro (hp | hp) <;> rw [hn, hv] at hp <;> cases hp
    · obtain ⟨⟨htext, hpc⟩, hes⟩ := hi
      change (graph ctx).step s a = some (s', fs) at hs
      obtain ⟨q, rest, -, -, -, hframe⟩ := step_frame hs
      have hpc' := proposalsConfined_step hpc hc hs
      rw [hframe.metadata]
      refine ⟨⟨htext, hpc'⟩, fun e hm name args hcall => ?_⟩
      rcases List.mem_append.mp hm with hm | hm
      · exact hes e hm name args hcall
      · cases e with
        | toolCall v args' =>
          cases hcall
          exact toolCall_inNamespace htext hc hs hm
        | executor ev =>
          cases ev with
          | dispatch name' args' d =>
            cases hcall
            obtain ⟨p, ps, hn, hp, rfl, rfl⟩ := dispatch_step hs hm
            exact hpc (.inr (by rw [hn]; rfl)) p (by rw [hp]; exact List.mem_cons_self)
          | _ => cases hcall
        | _ => cases hcall
  exact hinv.2

/-! ## The sample incidents -/

/-- A read-only tool that takes a namespace. -/
def listPodsTool : Tool := sampleTool "list_pods" 0

/-- A registry with two tools that take a namespace. -/
def podsRegistry : ToolRegistry where
  tools := [listPodsTool, restartTool]
  nodup := by decide

def podsContext : GraphContext where
  registry := podsRegistry
  executor := { sampleExecutor restartTool with registry := podsRegistry }

/-- Arguments with a namespace that the language model chooses. -/
def chosenArgs : PyDict := [("namespace", .str "kube-system")]

/-- An environment whose answers choose the namespace. -/
def podsEnv : NodeEnv :=
  sampleEnv (sampleAnswer "restart_deployment" 1 chosenArgs
    [.obj [("name", .str "list_pods"), ("args", .obj chosenArgs)]])

/-- Both nodes have a namespace to enforce. -/
def enforces (t : Thread) (_ : Label) : Bool :=
  (investigateNamespace t.values.incidentMetadata).isSome &&
    (proposeNamespace t.values.incidentMetadata).isSome

theorem namespaceKept_of_enforces (t : Thread) (a : Label) (h : enforces t a = true) :
    NamespaceKept podsContext t a := by
  rw [enforces, Bool.and_eq_true] at h
  constructor
  · rintro env call - - - - hnone
    rw [hnone] at h
    cases h.1
  · rintro env confidence category sel name - - hnone
    rw [hnone] at h
    cases h.2

/-- The metadata of the sample incident, with a namespace. -/
def namespaceMetadata (ns : String) : PyDict :=
  { sampleMetadata with namespaceName := ns }.modelDump

/-- The sample incident in a namespace. -/
def namespaceThread (ns : String) : Thread where
  values := { sampleThread.values with incidentMetadata := namespaceMetadata ns }
  next := .node .triage
  metrics := none

theorem namespaceThread_initial (ns : String) : (namespaceThread ns).OpenInitial :=
  ⟨namespaceMetadata ns, sampleMetadata, 3, .finite 1, fun _ hv => ⟨ns, (Option.some.inj hv).symm⟩,
    rfl, rfl⟩

/-- Calls of both nodes for an incident with a namespace. -/
theorem calls_confined_pods :
    ∃ n es t, (openGraph podsContext).Run (NamespaceKept podsContext) n es t ∧
      (∃ args, .toolCall (.str "list_pods") args ∈ es) ∧
      (∃ args d, .executor (.dispatch "restart_deployment" args d) ∈ es) ∧
      Confined t.values.incidentMetadata es := by
  have hexec : (((openGraph podsContext).restrict enforces).exec (namespaceThread "rivulet")
      (List.replicate 7 (.run podsEnv))).any (fun r => r.2.any (Event.callsTool "list_pods") &&
        r.2.any (Event.dispatches "restart_deployment")) = true := by
    decide +kernel
  obtain ⟨t, es, hr, hc⟩ := Sys.exists_checked_run namespaceKept_of_enforces
    (namespaceThread_initial "rivulet") hexec
  rw [Bool.and_eq_true] at hc
  exact ⟨_, es, t, hr, toolCall_of_callsTool hc.1, exists_dispatch hc.2, calls_confined hr⟩

/-- The event is a call of the tool by an investigation, in a namespace. -/
def Event.callsIn (name ns : String) : Event → Bool
  | .toolCall (.str toolName) args => toolName == name && proposeNamespace args == some ns
  | _ => false

theorem toolCall_of_callsIn {name ns : String} {es : List Event}
    (h : es.any (Event.callsIn name ns) = true) :
    ∃ args, .toolCall (.str name) args ∈ es ∧ proposeNamespace args = some ns := by
  obtain ⟨e, hm, he⟩ := List.any_eq_true.mp h
  unfold Event.callsIn at he
  split at he
  · rename_i toolName args
    obtain ⟨rfl, hns⟩ : toolName = name ∧ proposeNamespace args = some ns := by simpa using he
    exact ⟨args, hm, hns⟩
  · cases he

/-- An incident with an empty namespace is investigated in the one that the answer chooses. -/
theorem empty_namespace_escaped :
    ¬ ∀ (ctx : GraphContext) (n : Nat) (es : List Event) (t : Thread),
      (openGraph ctx).Run Sys.anyStep n es t → Confined t.values.incidentMetadata es := by
  intro hall
  have hexec : ((openGraph podsContext).exec (namespaceThread "")
      (List.replicate 2 (.run podsEnv))).any (fun r =>
        proposeNamespace r.1.values.incidentMetadata == some "" &&
          r.2.any (Event.callsIn "list_pods" "kube-system")) = true := by
    decide +kernel
  obtain ⟨t, es, hr, hc⟩ := Sys.exists_any_run (namespaceThread_initial "") hexec
  rw [Bool.and_eq_true] at hc
  obtain ⟨args, hm, hargs⟩ := toolCall_of_callsIn hc.2
  have heq := hall _ _ es t hr _ hm _ args rfl "list_pods" rfl (by decide)
  have hns : proposeNamespace t.values.incidentMetadata = some "" := by simpa using hc.1
  rw [proposeNamespace, heq] at hargs
  rw [proposeNamespace, hargs] at hns
  simp at hns

end Core
end AutoSRE
