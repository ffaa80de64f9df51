import AutoSRE.Safety.Outcomes

/-!
# The authority of the policy

The tier under which the executor dispatches an action. It is the tier that the policy gives the
larger of the registered and the proposed tier (`dispatch_tier`): the first matching rule's, and
the maximum itself when no rule matches. A rule may be lower than the registered tier, as the
default rule for a positive replica count is (`rule_below_registered_tier`).
-/

namespace AutoSRE
namespace Safety

open AutoSRE.Core Lib Py Tools

namespace SafeExecutor

/-- What holds of the decision `d` of a dispatched action, of a tool registered at `registered` and
proposed at `proposed`. -/
structure Authoritative (p : PolicyEngine) (action : ProposedAction)
    (registered proposed : RiskTier) (d : PolicyDecision) : Prop where
  /-- The first matching rule decides. -/
  byRule : ∀ r, p.firstMatch action.toolName action.toolArgs = .ok (some r) → d.riskTier = r.tier
  /-- Without a matching rule the maximum does. -/
  byMax : p.firstMatch action.toolName action.toolArgs = .ok none →
    d.riskTier = registered.max proposed
  notProhibited : d.riskTier ≠ .prohibited
  /-- Unless the first matching rule is lower, the tier is at least the maximum. -/
  atLeastMax : (∀ r, p.firstMatch action.toolName action.toolArgs = .ok (some r) →
      (registered.max proposed).value ≤ r.tier.value) →
    (registered.max proposed).value ≤ d.riskTier.value ∧ registered.max proposed ≠ .prohibited
  /-- No matcher raised, and a proposal cannot lower the tier that the registered tier gets. -/
  atLeastRegistered : ∃ tier, p.tierOf action.toolName action.toolArgs registered = .ok tier ∧
    tier.value ≤ d.riskTier.value

theorem reconcileApproval_riskTier (action : ProposedAction) (d : PolicyDecision) :
    (reconcileApproval action d).riskTier = d.riskTier := by
  unfold reconcileApproval
  split
  · rfl
  · split <;> rfl

theorem Permitted.authoritative {x : SafeExecutor} {action : ProposedAction} {d : PolicyDecision}
    (hd : x.Permitted action d) :
    ∃ tool registered proposed, x.registry.get action.toolName = .ok tool ∧
      registered.value = tool.riskTier ∧ proposed.value = action.riskTier ∧
      Authoritative x.policy action registered proposed d := by
  obtain ⟨tool, registered, proposed, d₀, htool, hreg, hprop, hcl, rfl⟩ := hd.decided
  obtain ⟨htier, hne, -⟩ := PolicyEngine.classify_ok hcl
  refine ⟨tool, registered, proposed, htool, RiskTier.value_ofInt? hreg,
    RiskTier.value_ofInt? hprop, ?_⟩
  obtain ⟨r, hfirst, hdecided⟩ := PolicyEngine.tierOf_eq_ok.mp htier
  have hmatch : ∀ r, x.policy.firstMatch action.toolName action.toolArgs = .ok (some r) →
      d₀.riskTier = r.tier := by
    intro r' hr
    cases hfirst.symm.trans hr
    exact hdecided
  have hnone : x.policy.firstMatch action.toolName action.toolArgs = .ok none →
      d₀.riskTier = registered.max proposed := by
    intro hr
    cases hfirst.symm.trans hr
    exact hdecided
  constructor <;> simp only [reconcileApproval_riskTier]
  · exact hmatch
  · exact hnone
  · exact hne
  · intro hlow
    have hle : (registered.max proposed).value ≤ d₀.riskTier.value := by
      cases r with
      | none => exact Int.le_of_eq (congrArg RiskTier.value (hnone hfirst)).symm
      | some r => exact hmatch r hfirst ▸ hlow r hfirst
    refine ⟨hle, fun hp => hne (RiskTier.prohibited_of_le ?_)⟩
    rwa [hp] at hle
  · exact PolicyEngine.tierOf_mono (RiskTier.le_max_left _ _) htier

/-- The default rule for a positive replica count dispatches a tool registered at tier 2 at
tier 1. -/
theorem rule_below_registered_tier :
    ¬ ∀ (x : SafeExecutor) (h : Handlers) (incidentId : Option String) (action : ProposedAction)
      (name : String) (args : PyDict) (d : PolicyDecision) (tool : Tool),
      .dispatch name args d ∈ (x.execute h incidentId action).log →
      x.registry.get action.toolName = .ok tool →
        max tool.riskTier action.riskTier ≤ d.riskTier.value ∧
          max tool.riskTier action.riskTier ≠ RiskTier.prohibited.value := by
  intro hall
  let tool := dummyTool "scale_deployment" 2
  let action : ProposedAction :=
    { toolName := "scale_deployment", riskTier := 2, rationale := "", requiresApproval := false
      toolArgs := [("namespace", .str "rivulet"), ("replicas", .int 3)]
      tier_nonneg := by decide, tier_le := by decide }
  have h := (hall (sampleExecutor tool) quietHandlers none action _ _ _ tool
    (List.mem_cons_of_mem _ List.mem_cons_self) rfl).1
  exact absurd h (by decide)

/-- Every dispatch is under a decision whose tier the policy decides from the larger of the
registered and the proposed tier. -/
theorem dispatch_tier (x : SafeExecutor) (h : Handlers) (incidentId : Option String)
    (action : ProposedAction) {name : String} {args : PyDict} {d : PolicyDecision}
    (hm : .dispatch name args d ∈ (x.execute h incidentId action).log) :
    ∃ tool registered proposed, x.registry.get action.toolName = .ok tool ∧
      registered.value = tool.riskTier ∧ proposed.value = action.riskTier ∧
      Authoritative x.policy action registered proposed d :=
  (permitted_of_dispatch hm).2.2.authoritative

theorem dispatch_tier_restart :
    ∃ tool registered proposed, restartExecutor.registry.get restartAction.toolName = .ok tool ∧
      registered.value = tool.riskTier ∧ proposed.value = restartAction.riskTier ∧
      Authoritative restartExecutor.policy restartAction registered proposed
        { allowed := true, riskTier := .reversibleLow, requiresApproval := false
          reason := "Rollout restart is reversible with low blast radius." } :=
  dispatch_tier restartExecutor quietHandlers none restartAction
    (List.mem_cons_of_mem _ List.mem_cons_self)

end SafeExecutor

end Safety
end AutoSRE
