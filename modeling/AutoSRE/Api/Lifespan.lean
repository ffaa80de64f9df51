import AutoSRE.Core.Repeats
import AutoSRE.Core.Termination

/-!
# The application (`api/main.py`)

- **Settings** (`SafetyConfig`). The safety settings, with their bounds as fields.
- **The assembly** (`lifespan`). The graph context that the application builds from them. Only the
  thresholds of the confidence are passed on: the limits on actions and on the autonomous tier are
  the defaults of `GraphContext` and of `PolicyEngine`.
- **The limits** (`Limited`). They do not bound the runs of the application
  (`limits_exceeded`), unless the defaults are as strict or what the limits forbid is not tried
  (`limits_kept`).
-/

namespace AutoSRE
namespace Api

open Lib Py Safety Tools AutoSRE.Core

/-! ## Settings -/

/-- A confidence is between 0 and 1. -/
def InUnit (x : PyFloat) : Prop := PyFloat.le .zero x = true ∧ PyFloat.le x (.finite 1) = true

/-- The settings of `SafetyConfig` that limit the actions or that a node reads. -/
structure SafetyConfig where
  maxRiskTierAutonomous : Int := 1
  maxActionsPerIncident : Int := 10
  maxActionAttempts : Int := 1
  confidencePropose : PyFloat := .ofRat (mkRat 55 100)
  confidenceFastPath : PyFloat := .ofRat (mkRat 5 10)
  tier_bounds : 0 ≤ maxRiskTierAutonomous ∧ maxRiskTierAutonomous ≤ 4
  actions_bounds : 1 ≤ maxActionsPerIncident ∧ maxActionsPerIncident < 100
  attempts_bounds : 1 ≤ maxActionAttempts ∧ maxActionAttempts ≤ 5
  propose_bounds : InUnit confidencePropose
  fastPath_bounds : InUnit confidenceFastPath

/-- `SafetyConfig()`. -/
def SafetyConfig.default : SafetyConfig where
  tier_bounds := by decide
  actions_bounds := by decide
  attempts_bounds := by decide
  propose_bounds := ⟨by decide +kernel, by decide +kernel⟩
  fastPath_bounds := ⟨by decide +kernel, by decide +kernel⟩

/-- The calls of the executor that the settings allow in an incident. -/
def SafetyConfig.actionLimit (s : SafetyConfig) : Int :=
  min s.maxActionAttempts s.maxActionsPerIncident

/-! ## The assembly -/

variable (s : SafetyConfig) (registry : ToolRegistry) (hashArgs : PyDict → String)
  (costOf : Int → Int → String → PyFloat × PyFloat)

/-- Steps 9 to 11 of `lifespan`: the policy engine, the executor and the graph context. -/
def lifespan : GraphContext :=
  let policyEngine := { PolicyEngine.default with maxAutonomous := .reversibleLow }
  let executor : SafeExecutor :=
    { registry, policy := policyEngine, snapshots := [], verifiers := [], rollbacks := []
      auditHook := false, hashArgs }
  { registry, executor, costOf
    confidencePropose := s.confidencePropose
    confidenceFastPath := s.confidenceFastPath }

/-! ## The limits -/

/-- The tool is registered above the autonomous tier, and the policy does not put the call lower. -/
def Exceeds (x : SafeExecutor) (name : String) (args : PyDict) : Prop :=
  ∃ tool registered tier, x.registry.get name = .ok tool ∧
    RiskTier.ofInt? tool.riskTier = some registered ∧
    s.maxRiskTierAutonomous < registered.value ∧
    x.policy.tierOf name args registered = .ok tier ∧ s.maxRiskTierAutonomous < tier.value

/-- The settings bound what the incident has executed. -/
structure Limited (x : SafeExecutor) (es : List Event) : Prop where
  calls : (es.countP Event.isCall : Int) ≤ s.actionLimit
  approved : ∀ pre name args d post, es = pre ++ .executor (.dispatch name args d) :: post →
    Exceeds s x name args → Granted pre

/-- The step does not try what the settings forbid and the defaults allow. -/
structure LimitsKept (ctx : GraphContext) (t : Thread) (a : Label) : Prop where
  /-- With a limit below the default, `execute_node` begins only with no attempt used. -/
  attempts : 2 ≤ s.actionLimit ∨ (t.next = .node .execute → t.values.actionAttempts = 0)
  /-- Until there is a grant, the proposals of calls above the autonomous tier declare a tier that
  needs an approval. -/
  tiers : TiersDeclared ctx (Exceeds s ctx.executor) t a

theorem SafetyConfig.actionLimit_pos : 1 ≤ s.actionLimit := by
  have ha := s.attempts_bounds.1
  have hb := s.actions_bounds.1
  unfold SafetyConfig.actionLimit
  omega

variable {s registry hashArgs costOf}

/-- The settings bound the runs that do not try what the defaults allow beyond them. -/
theorem limits_kept {n : Nat} {es : List Event} {t : Thread}
    (hr : (graph (lifespan s registry hashArgs costOf)).Run
      (LimitsKept s (lifespan s registry hashArgs costOf)) n es t) :
    Limited s (lifespan s registry hashArgs costOf).executor es := by
  have hpos := s.actionLimit_pos
  constructor
  · have hle : es.countP Event.isCall ≤ s.actionLimit.toNat := by
      refine calls_le_of (fun t a hc hn hlt => ?_) hr
      change t.values.actionAttempts < 2 at hlt
      rcases hc.attempts with h2 | h0
      · omega
      · have := h0 hn
        omega
    omega
  · intro pre name args d post he hx
    exact dispatch_granted (hr.mono fun _ _ hc => hc.tiers) he hx

/-! ### The sample incidents -/

/-- The application with the default settings and `flush_all` as its only tool. -/
def flushApplication : GraphContext :=
  lifespan .default { tools := [flushAllTool], nodup := by simp } (fun _ => "")
    fun _ _ _ => (.zero, .zero)

/-- `execute_node` begins with no attempt used. -/
def checkFirst (t : Thread) (_ : Label) : Bool :=
  match t.next with
  | .node .execute => t.values.actionAttempts == 0
  | _ => true

theorem limitsKept_of_check {t : Thread} {a : Label}
    (ht : TiersDeclared flushApplication (Exceeds .default flushApplication.executor) t a)
    (h : checkFirst t a = true) : LimitsKept .default flushApplication t a := by
  refine ⟨.inr fun hn => ?_, ht⟩
  simpa [checkFirst, hn] using h

/-- An incident with an approved `flush_all`. -/
theorem limits_kept_flushAll :
    ∃ n es t, (graph flushApplication).Run (LimitsKept .default flushApplication) n es t ∧
      (∃ args d, .executor (.dispatch "flush_all" args d) ∈ es) ∧
      Limited .default flushApplication.executor es := by
  have hexec : (((graph flushApplication).restrict checkFirst).exec sampleThread flushLabels).any
      (fun r => r.2.any (Event.dispatches "flush_all")) = true := by
    decide +kernel
  have htiers : ∀ t, ∀ a ∈ flushLabels,
      TiersDeclared flushApplication (Exceeds .default flushApplication.executor) t a := by
    intro t a ha
    refine sampleAnswer_declared rfl ?_ (flushLabels_cases ha)
    rintro name args ⟨tool, registered, tier, hget, -⟩
    exact ⟨tool, hget⟩
  obtain ⟨t, es, hr, hc⟩ := Sys.exists_run_of_exec sampleThread_initial htiers hexec
  have hr' := (Sys.restrict_run hr).mono fun t a h => limitsKept_of_check h.1 h.2
  exact ⟨_, es, t, hr', exists_dispatch hc, limits_kept hr'⟩

/-- An environment in which the dispatched tool fails. -/
def failingEnv : NodeEnv :=
  { sampleEnv .null with
    handlers := { quietHandlers with tool := .raised .timeoutError }
    uncancelled := by constructor <;> simp [quietHandlers] }

/-- With one attempt configured there are two calls of the executor. -/
theorem limits_exceeded :
    ¬ ∀ (s : SafetyConfig) (registry : ToolRegistry) (hashArgs : PyDict → String)
      (costOf : Int → Int → String → PyFloat × PyFloat) (n : Nat) (es : List Event) (t : Thread),
      (graph (lifespan s registry hashArgs costOf)).Run Sys.anyStep n es t →
      Limited s (lifespan s registry hashArgs costOf).executor es := by
  intro hall
  -- The second `flush_all` has another reason than the first.
  have hexec : ((graph flushApplication).exec sampleThread
      (retryLabels (flushEnv "eviction storm") failingEnv (flushEnv "memory pressure")
        (sampleEnv .null))).any
      (fun r => r.2.countP Event.isCall == 2) = true := by
    decide +kernel
  obtain ⟨t, es, hr, hc⟩ := Sys.exists_any_run sampleThread_initial hexec
  have htwo : es.countP Event.isCall = 2 := by simpa using hc
  have hle := (hall _ _ _ _ _ es t hr).calls
  rw [htwo] at hle
  exact absurd hle (by decide)

end Api
end AutoSRE
