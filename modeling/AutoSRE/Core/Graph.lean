import AutoSRE.Core.Propose
import AutoSRE.Lib.Sys

/-!
# The compiled graph (`core/graph.py`)

- **Routing** (`routeAfter`). The edges of the graph and the routing functions.
- **A thread** (`Thread`). The checkpoint, what is next, and the run metrics.
- **The system** (`graph`). A step (`Label`) executes the next node, or resumes a run that is paused
  at the interrupt of `approve_node`: the node is then executed again, with the decision. A run
  starts from `createInitialState`.
-/

namespace AutoSRE
namespace Core

open Lib Py Safety Tools

/-! ## Routing -/

/-- `route_initial_phase`. -/
def routeInitialPhase (s : AgentState) : Phase := s.currentPhase

/-- `route_after_triage`. -/
def routeAfterTriage (s : AgentState) : Phase :=
  if s.currentPhase = .complete then .complete else .investigate

/-- `route_after_hypothesize`. -/
def routeAfterHypothesize (s : AgentState) : Phase :=
  let budget := if s.iterationBudget = 0 then 3 else s.iterationBudget
  if budget ≤ s.iterationCount then .propose
  else if 2 ≤ s.stagnationCount then .propose
  else if (PyFloat.finite (mkRat 1 2)).le s.lastTopConfidence then .propose
  else .investigate

/-- `route_after_propose` and `route_after_approval`. -/
def routeAfterApproval (s : AgentState) : Phase :=
  match s.currentPhase with
  | .approve => .approve
  | .execute => .execute
  | _ => .complete

/-- `route_after_verify`. -/
def routeAfterVerify (s : AgentState) : Phase :=
  if s.currentPhase = .propose then .propose else .complete

/-! ## Threads -/

/-- What a thread does next. -/
inductive Next where
  | node (p : Phase)
  /-- It waits at the interrupt of `approve_node`. -/
  | paused
  | done
  /-- An exception escaped a node. -/
  | crashed (exc : PyExc)

/-- The run has ended. -/
def Next.isDone : Next → Bool
  | .done => true
  | _ => false

theorem Next.eq_done {n : Next} (h : n.isDone = true) : n = .done := by
  cases n with
  | done => rfl
  | node _ => cases h
  | paused => cases h
  | crashed _ => cases h

/-- A thread of the graph. -/
structure Thread where
  values : AgentState
  next : Next
  metrics : Option RunMetrics

/-- The edges of the graph. -/
def routeAfter (p : Phase) (s : AgentState) : Next :=
  match p with
  | .triage => .node (routeAfterTriage s)
  | .investigate => .node .hypothesize
  | .hypothesize => .node (routeAfterHypothesize s)
  | .propose => .node (routeAfterApproval s)
  | .approve => .node (routeAfterApproval s)
  | .execute => .node .verify
  | .verify => .node (routeAfterVerify s)
  | .complete => .done

/-- The run metrics that an event changes. -/
def RunMetrics.record (m : RunMetrics) : Event → RunMetrics
  | .llmCall backoffs latency =>
    (backoffs.foldl RunMetrics.recordBackoff m).recordLlmLatency latency
  | .approvalWait seconds => m.recordApprovalWait seconds
  | _ => m

/-- The execution of a node. -/
def runNode (ctx : GraphContext) (env : NodeEnv) (resume : Option Json)
    (metrics : Option RunMetrics) : Phase → AgentState → Node AgentState
  | .triage => triageNode ctx env
  | .investigate => investigateNode ctx env
  | .hypothesize => hypothesizeNode ctx env
  | .propose => proposeNode ctx env
  | .approve => approveNode env resume
  | .execute => executeNode ctx env
  | .verify => verifyNode ctx
  | .complete => completeNode env metrics

/-- What a thread is after a node ended with `out`. -/
def settle (p : Phase) (s : AgentState) : Except NodeError AgentState → AgentState × Next
  | .ok s' => (s', routeAfter p s')
  | .error (.raised exc) => (s, .crashed exc)
  | .error (.interrupted _) => (s, .paused)

/-- A thread after the execution of a node. -/
def afterNode (p : Phase) (s : AgentState) (metrics : Option RunMetrics)
    (run : Node AgentState) : Thread × List Event :=
  ({ values := (settle p s run.out).1
     next := (settle p s run.out).2
     metrics := metrics.map fun m => run.log.foldl RunMetrics.record m }, .node p :: run.log)

/-- A step of the environment. -/
inductive Label where
  | run (env : NodeEnv)
  /-- The paused run is resumed with a decision; its configuration has the given run metrics. -/
  | resume (decision : Json) (env : NodeEnv) (metrics : Option RunMetrics)

/-- The step of a label. -/
def stepThread (ctx : GraphContext) (t : Thread) : Label → Option (Thread × List Event)
  | .run env =>
    match t.next with
    | .node p =>
      some (afterNode p t.values t.metrics (runNode ctx env none t.metrics p t.values))
    | _ => none
  | .resume decision env metrics =>
    match t.next with
    | .paused =>
      some (afterNode .approve t.values metrics
        (runNode ctx env (some decision) metrics .approve t.values))
    | _ => none

/-- A thread before its first node. -/
def Thread.Initial (t : Thread) : Prop :=
  ∃ metadata budget now, t.values = createInitialState metadata budget now ∧
    t.next = .node (routeInitialPhase t.values)

/-- The compiled graph. -/
def graph (ctx : GraphContext) : Sys Thread Label Event where
  init := Thread.Initial
  step := stepThread ctx

/-! ## A sample incident -/

/-- An incident without a category. -/
def sampleMetadata : IncidentMetadata where
  incidentId := "inc-1"
  alertName := "ValkeyMemoryHigh"
  service := "valkey"
  namespaceName := "rivulet"
  severity := "critical"
  startedAt := "2026-01-01T00:00:00Z"

/-- The thread before its first node. -/
def sampleThread : Thread where
  values := createInitialState sampleMetadata 3 (.finite 1)
  next := .node .triage
  metrics := none

theorem sampleThread_initial : sampleThread.Initial := ⟨sampleMetadata, 3, .finite 1, rfl, rfl⟩

/-- A tool that the policy gates. -/
def flushAllTool : Tool := dummyTool "flush_all" 2

/-- A tool whose name and tier are checked together. -/
def sampleTool (name : String) (tier : Nat)
    (h : toolNameOk name = true ∧ tier ≤ 4 := by decide) : Tool :=
  dummyTool name tier h.1 h.2

/-- A context with one tool, which has every handler. -/
def sampleContext (tool : Tool) : GraphContext where
  registry := (sampleExecutor tool).registry
  executor := sampleExecutor tool

/-- An environment in which the language model gives one answer and no handler fails. -/
def sampleEnv (answer : Json) : NodeEnv where
  llm :=
    { outcome := .response
        { modelUsed := "model", model := "model", usage := .missing, payload := some answer } }
  tool := .returned (.obj [])
  handlers := quietHandlers
  now := .finite 2
  toolCallId := "call-1"
  executedAt := "2026-01-01T00:00:00Z"
  uncancelled := quietHandlers_uncancelled
  tool_uncancelled := nofun

/-- An answer for every stage: one hypothesis, the tool calls of an investigation, and a call of a
tool at a tier. -/
def sampleAnswer (toolName : String) (riskTier : Int) (toolArgs : PyDict := [])
    (tools : List Json := []) : Json :=
  .obj
    [("hypotheses", .arr [.obj [("id", .str "H1"), ("description", .str "full"),
        ("confidence", .float (.ofRat (mkRat 9 10)))]]),
      ("tools", .arr tools), ("tool_name", .str toolName), ("tool_args", .obj toolArgs),
      ("risk_tier", .int riskTier)]

end Core
end AutoSRE
