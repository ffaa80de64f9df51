import AutoSRE.Core.Grants

/-!
# The dispatch boundary

`investigate_node` calls the registry directly. Without an answer it calls a read-only tool, but the
name in an answer is not checked (`answered_tool_called`). When the answers name read-only tools
(`AnswersReadOnly`), the tools that can change something are called by the executor only
(`single_boundary`).
-/

namespace AutoSRE
namespace Core

open Lib Py Safety Tools

/-- The name of a tool that is registered at tier 0. -/
def ReadOnly (r : ToolRegistry) (name : Json) : Prop :=
  ∃ text tool, name = .str text ∧ r.get text = .ok tool ∧ tool.riskTier = 0

/-- The name and the arguments of a call of the registry. -/
def Event.registryCall? : Event → Option (Json × PyDict)
  | .toolCall name args => some (name, args)
  | .executor (.dispatch name args _) => some (.str name, args)
  | _ => none

/-- The executor is the only boundary to the tools that can change something. -/
structure SingleBoundary (ctx : GraphContext) (es : List Event) : Prop where
  /-- `investigate_node` calls read-only tools. -/
  readOnly : ∀ name args, .toolCall name args ∈ es → ReadOnly ctx.registry name
  /-- Any other tool is dispatched inside a call of the executor, for that action. -/
  executed : ∀ pre e post name args, es = pre ++ e :: post → e.registryCall? = some (name, args) →
    ¬ ReadOnly ctx.registry name →
    ∃ pre' action d, ∃ fs : List ExecEvent, pre = pre' ++ .executorCall action :: fs.map .executor ∧
      name = .str action.toolName ∧ args = action.toolArgs ∧
      e = .executor (.dispatch action.toolName action.toolArgs d)

section condition

variable (ctx : GraphContext)

/-- The first tool call of an answer that `investigate_node` uses names a read-only tool. -/
def AnswersReadOnly (t : Thread) (a : Label) : Prop :=
  ∀ env r parsed usage c cs call, a = .run env → t.next = .node .investigate →
    ctx.sreContext = true → (readOnlyTools ctx).isEmpty = false →
    env.llm.outcome.parsed "investigate" false = .ok (r, parsed) →
    accumulateUsage ctx t.values.usage r env.llm.promptChars = .ok usage →
    PyDict.getD parsed "tools" (.arr []) = .arr (c :: cs) → c.asDict? = some call →
    ReadOnly ctx.registry (callName call)

variable {ctx}

/-- The first call of the node is an answer's, or of a read-only tool. -/
theorem firstCall_some {env : NodeEnv} {s : AgentState} {call : PyDict}
    (h : firstCall ctx env s = some call) :
    (∃ r parsed usage c cs, env.llm.outcome.parsed "investigate" false = .ok (r, parsed) ∧
      accumulateUsage ctx s.usage r env.llm.promptChars = .ok usage ∧
      PyDict.getD parsed "tools" (.arr []) = .arr (c :: cs) ∧ c.asDict? = some call) ∨
    ∃ tool ∈ readOnlyTools ctx, callName call = .str tool.name := by
  unfold firstCall selectCalls at h
  cases ha : investigateAnswer ctx env s with
  | ok answer =>
    simp only [ha] at h
    unfold investigateAnswer at ha
    split at ha
    · cases ha
    · rename_i r parsed hp
      simp only at ha
      split at ha
      · cases ha
      · rename_i usage hu
        cases ha
        simp only at h
        split at h
        · rename_i calls hc
          cases calls with
          | nil => simp at h
          | cons c cs => exact .inl ⟨r, parsed, usage, c, cs, hp, hu, hc, by simpa using h⟩
        · simp at h
  | error exc =>
    simp only [ha] at h
    cases hts : readOnlyTools ctx with
    | nil => simp [hts] at h
    | cons tool tools =>
      simp only [hts, List.map_cons, List.head?_cons, Option.bind_some] at h
      cases h
      exact .inr ⟨tool, List.mem_cons_self, rfl⟩

theorem readOnly_of_mem {tool : Tool} (h : tool ∈ readOnlyTools ctx) :
    ReadOnly ctx.registry (.str tool.name) := by
  simp only [readOnlyTools, List.mem_filter, beq_iff_eq] at h
  exact ⟨tool.name, tool, rfl, ToolRegistry.get_of_mem h.1, h.2⟩

/-- A step under the condition calls read-only tools. -/
theorem toolCall_readOnly {t t' : Thread} {a : Label} {fs : List Event}
    (hc : AnswersReadOnly ctx t a) (h : (graph ctx).step t a = some (t', fs)) {name : Json}
    {args : PyDict} (hm : .toolCall name args ∈ fs) : ReadOnly ctx.registry name := by
  have hn : t.next = .node .investigate := next_of_source h hm (fun _ h => h) (by decide)
  obtain ⟨env, ha, hstep⟩ := step_node h hn
  obtain ⟨-, rfl⟩ := Prod.mk.inj hstep
  obtain ⟨hsre, htools, call, hcall, rfl, -⟩ :=
    investigateNode_call ctx env t.values ((List.mem_cons.mp hm).resolve_left nofun)
  rcases firstCall_some hcall with ⟨r, parsed, usage, c, cs, hpa, hu, hcalls, hdict⟩ |
    ⟨tool, htool, hname⟩
  · exact hc env r parsed usage c cs call ha hn hsre htools hpa hu hcalls hdict
  · exact hname ▸ readOnly_of_mem htool

/-- The log of a call of the executor up to one of its events. -/
theorem dispatch_after_call {action : ProposedAction} {log : List ExecEvent} {e : ExecEvent}
    {fs₁ fs₂ : List Event}
    (h : .node .execute :: .executorCall action :: log.map .executor = fs₁ ++ .executor e :: fs₂) :
    ∃ fs : List ExecEvent,
      fs₁ = .node .execute :: .executorCall action :: fs.map .executor := by
  match fs₁, h with
  | [], h => simp at h
  | [e₁], h => simp at h
  | e₁ :: e₂ :: rest, h =>
    simp only [List.cons_append, List.cons.injEq] at h
    obtain ⟨rfl, rfl, h⟩ := h
    obtain ⟨l₁, l₂, -, rfl, -⟩ := List.map_eq_append_iff.mp h
    exact ⟨l₁, rfl⟩

/-- When the answers name read-only tools, any other tool is dispatched by the executor only. -/
theorem single_boundary {n : Nat} {es : List Event} {t : Thread}
    (hr : (graph ctx).Run (AnswersReadOnly ctx) n es t) : SingleBoundary ctx es := by
  have hread : ∀ name args, .toolCall name args ∈ es → ReadOnly ctx.registry name := by
    intro name args hm
    obtain ⟨_, _, t₁, a, t₂, fs, -, hc, hs, hm⟩ := hr.logged hm
    exact toolCall_readOnly hc hs hm
  refine ⟨hread, fun pre e post name args he hcall hnot => ?_⟩
  cases e with
  | toolCall name' args' =>
    cases hcall
    exact absurd (hread name args (by simp [he])) hnot
  | executor ev =>
    cases ev with
    | dispatch name' args d =>
      cases hcall
      obtain ⟨_, es₁, t₁, a, t₂, fs, fs₁, fs₂, -, -, hs, hfs, rfl⟩ := hr.split he
      have hm : .executor (.dispatch name' args d) ∈ fs := by simp [hfs]
      obtain ⟨env, p, ps, action, -, -, -, -, rfl⟩ := executor_step hs hm (fun _ h => h) nofun
      have hd : ExecEvent.dispatch name' args d ∈
          (ctx.executor.execute env.handlers none action).log := by simpa using hm
      obtain ⟨rfl, rfl, -⟩ := SafeExecutor.permitted_of_dispatch hd
      obtain ⟨fs', rfl⟩ := dispatch_after_call hfs
      exact ⟨es₁ ++ [.node .execute], action, d, fs', by simp, rfl, rfl, rfl⟩
    | _ => cases hcall
  | _ => cases hcall

end condition

/-! ## The sample incident -/

def getInfoTool : Tool := dummyTool "get_info" 0

/-- A registry with a read-only tool, and `flush_all` at tier 2. -/
def boundaryRegistry : ToolRegistry where
  tools := [getInfoTool, flushAllTool]
  nodup := by decide

def boundaryContext : GraphContext where
  registry := boundaryRegistry
  executor := { sampleExecutor flushAllTool with registry := boundaryRegistry }

/-- An answer whose investigation calls a tool. -/
def boundaryAnswer (toolName : String) : Json :=
  sampleAnswer "flush_all" 2 [] [.obj [("name", .str toolName), ("args", .obj [])]]

/-- The steps of an incident that is investigated with a tool, and whose proposal is approved. -/
def boundaryLabels : List Label :=
  List.replicate 6 (.run (sampleEnv (boundaryAnswer "get_info"))) ++
    [.resume (.bool true) (sampleEnv .null) none, .run (sampleEnv (boundaryAnswer "get_info"))]

theorem boundaryLabels_readOnly (t : Thread) {a : Label} (ha : a ∈ boundaryLabels) :
    AnswersReadOnly boundaryContext t a := by
  rintro env r parsed usage c cs call rfl - - - hp - htools hcall
  obtain rfl : env = sampleEnv (boundaryAnswer "get_info") := by
    simp only [boundaryLabels, List.mem_append, List.mem_replicate, List.mem_cons,
      List.not_mem_nil, or_false] at ha
    rcases ha with ⟨-, h⟩ | h | h <;> cases h <;> rfl
  obtain ⟨-, rfl⟩ : r = _ ∧ _ = parsed := by
    simpa [sampleEnv, boundaryAnswer, sampleAnswer, LlmOutcome.parsed, parseJsonResponse,
      eq_comm, Except.map] using hp
  cases htools
  cases hcall
  exact ⟨"get_info", getInfoTool, rfl, rfl, rfl⟩

/-- The event is a call of the tool by an investigation. -/
def Event.callsTool (name : String) : Event → Bool
  | .toolCall (.str toolName) _ => toolName == name
  | _ => false

theorem toolCall_of_callsTool {name : String} {es : List Event}
    (h : es.any (Event.callsTool name) = true) : ∃ args, .toolCall (.str name) args ∈ es := by
  obtain ⟨e, hm, he⟩ := List.any_eq_true.mp h
  unfold Event.callsTool at he
  split at he
  · rename_i toolName args
    obtain rfl : toolName = name := by simpa using he
    exact ⟨args, hm⟩
  · cases he

theorem single_boundary_investigated :
    ∃ n es t, (graph boundaryContext).Run (AnswersReadOnly boundaryContext) n es t ∧
      (∃ args, .toolCall (.str "get_info") args ∈ es) ∧ SingleBoundary boundaryContext es := by
  have hexec : ((graph boundaryContext).exec sampleThread boundaryLabels).any
      (fun r => r.2.any (Event.callsTool "get_info")) = true := by
    decide +kernel
  obtain ⟨t, es, hr, hc⟩ := Sys.exists_run_of_exec (C := AnswersReadOnly boundaryContext)
    sampleThread_initial (fun t a ha => boundaryLabels_readOnly t ha) hexec
  exact ⟨_, es, t, hr, toolCall_of_callsTool hc, single_boundary hr⟩

/-- An answer that names `flush_all` at the investigation calls it. -/
theorem answered_tool_called :
    ¬ ∀ (ctx : GraphContext) (n : Nat) (es : List Event) (t : Thread),
      (graph ctx).Run Sys.anyStep n es t → SingleBoundary ctx es := by
  intro hall
  have hexec : ((graph boundaryContext).exec sampleThread
      (List.replicate 2 (.run (sampleEnv (boundaryAnswer "flush_all"))))).any
      (fun r => r.2.any (Event.callsTool "flush_all")) = true := by
    decide +kernel
  obtain ⟨t, es, hr, hc⟩ := Sys.exists_any_run sampleThread_initial hexec
  obtain ⟨args, hm⟩ := toolCall_of_callsTool hc
  obtain ⟨text, tool, htext, hget, htier⟩ := (hall _ _ es t hr).readOnly _ _ hm
  cases htext
  obtain rfl : flushAllTool = tool := Except.ok.inj hget
  cases htier

end Core
end AutoSRE
