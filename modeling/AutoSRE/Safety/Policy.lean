import AutoSRE.Python.Render

/-!
# The risk-tier policy (`safety/policy.py`)

- **Tiers** (`RiskTier`). The enumeration `RiskTier`, ordered by its values; `RiskTier.ofInt?` is
  `RiskTier(n)`.
- **Rules** (`Rule`). A rule names a tool or `*`, and may have a matcher, which is any callable on
  the arguments and may raise; `Rule.applies` says whether it matches a call. `defaultRules` is
  `_DEFAULT_RULES`.
- **The engine** (`PolicyEngine`). What `__init__` checks is carried by the structures: a rule's
  tool and an allowed namespace are not empty.
- **Classification** (`PolicyEngine.classify`). The checks before the rules are `reject?`, in the
  source's order. The decided tier is the tier of the first rule that applies, else the base tier
  (`PolicyEngine.tierOf`, `classify_ok`). A rejected call is an error, and so is what a matcher
  raises (`classify_raised_iff`).
-/

namespace AutoSRE
namespace Safety

open Py

/-- `RiskTier`: from 0 (observe) to 4 (prohibited). -/
inductive RiskTier where
  | observe
  | reversibleLow
  | reversibleHigh
  | irreversibleBounded
  | prohibited
  deriving DecidableEq, Repr

namespace RiskTier

/-- `int(tier)`. -/
def value : RiskTier → Int
  | .observe => 0
  | .reversibleLow => 1
  | .reversibleHigh => 2
  | .irreversibleBounded => 3
  | .prohibited => 4

/-- `RiskTier(n)`; `none` is `ValueError`. -/
def ofInt? : Int → Option RiskTier
  | 0 => some .observe
  | 1 => some .reversibleLow
  | 2 => some .reversibleHigh
  | 3 => some .irreversibleBounded
  | 4 => some .prohibited
  | _ => none

theorem value_ofInt? {n : Int} {t : RiskTier} (h : ofInt? n = some t) : t.value = n := by
  unfold ofInt? at h
  split at h <;> cases h <;> rfl

@[simp] theorem ofInt?_value (t : RiskTier) : ofInt? t.value = some t := by
  cases t <;> rfl

/-- `RiskTier(v)` of any value: the members are looked up by `==`. -/
def ofJson? (v : Json) : Option RiskTier :=
  match v.number? with
  | some (.finite q) => if q.den = 1 then ofInt? q.num else none
  | _ => none

@[simp] theorem ofJson?_int (i : Int) : ofJson? (.int i) = ofInt? i := by
  simp [ofJson?, Json.number?]

theorem value_injective {a b : RiskTier} (h : a.value = b.value) : a = b := by
  cases a <;> cases b <;> first | rfl | cases h

/-- `max(a, b)`. -/
def max (a b : RiskTier) : RiskTier := if a.value < b.value then b else a

theorem le_max_left (a b : RiskTier) : a.value ≤ (max a b).value := by
  unfold max; split <;> omega

theorem value_le_four (t : RiskTier) : t.value ≤ 4 := by
  cases t <;> decide

theorem prohibited_of_le {t : RiskTier} (h : RiskTier.prohibited.value ≤ t.value) :
    t = .prohibited :=
  value_injective (Int.le_antisymm (value_le_four t) h)

end RiskTier

/-- Outcome of a policy classification. -/
structure PolicyDecision where
  allowed : Bool
  riskTier : RiskTier
  requiresApproval : Bool
  reason : String
  deriving DecidableEq, Repr

/-- A Tier-4 rejection for malformed or prohibited input (`_reject`, `_policy_rejection`). -/
def rejection (reason : String) : PolicyDecision :=
  { allowed := false, riskTier := .prohibited, requiresApproval := false, reason }

/-! ## Checks on the arguments -/

/-- A character of a glob. -/
def isGlob (c : Char) : Bool := c == '*' || c == '?' || c == '[' || c == ']'

mutual
/-- A JSON-like value contains a glob character. -/
def containsWildcard : Json → Bool
  | .str s => s.toList.any isGlob
  | .obj d => itemsContainWildcard d
  | .arr xs => anyContainsWildcard xs
  | _ => false
/-- One of the values contains a glob character. -/
def anyContainsWildcard : List Json → Bool
  | [] => false
  | x :: xs => containsWildcard x || anyContainsWildcard xs
/-- A key or a value contains a glob character. -/
def itemsContainWildcard : List (String × Json) → Bool
  | [] => false
  | (k, v) :: d => k.toList.any isGlob || containsWildcard v || itemsContainWildcard d
end

/-- Any action argument contains a glob character. -/
def hasWildcardArguments (args : PyDict) : Bool := args.any fun p => containsWildcard p.2

/-- An integer replica count; a `bool` or a `float` is none. -/
def parseReplicas : Option Json → Option Int
  | some (.int i) => some i
  | some (.str s) => intOfText s
  | _ => none

/-- The replica count of the arguments. -/
def replicas (args : PyDict) : Option Int := parseReplicas (PyDict.get? args "replicas")

def isInvalidScale (args : PyDict) : Bool :=
  match replicas args with
  | none => true
  | some n => decide (n < 0)

def isScaleToZero (args : PyDict) : Bool := replicas args == some 0

def isScalePositive (args : PyDict) : Bool :=
  match replicas args with
  | none => false
  | some n => decide (0 < n)

/-- The action targets a protected system namespace. -/
def isSystemNamespace (args : PyDict) : Bool :=
  match PyDict.get? args "namespace" with
  | some (.str ns) => ns ∈ ["kube-system", "kube-public", "kube-node-lease", "cert-manager"]
  | _ => false

/-! ## Rules -/

/-- What makes `classify` raise: a `PolicyRejectionError`, or another exception. -/
inductive ClassifyError where
  | rejected (d : PolicyDecision)
  | raised (exc : PyExc)
  deriving DecidableEq

/-- A matcher: `bool(matcher(args))`, or what it raises. -/
abbrev Matcher := PyDict → Except ClassifyError Bool

/-- A matcher that does not raise. -/
def Matcher.total (m : PyDict → Bool) : Matcher := fun args => .ok (m args)

/-- A policy rule that `_validate_rules` accepts. -/
structure Rule where
  /-- The tool that the rule is about; `*` is every tool. -/
  tool : String
  matcher : Option Matcher
  tier : RiskTier
  reason : Option String
  tool_ne : tool ≠ ""

namespace Rule

/-- The rule matches the call. -/
def applies (r : Rule) (toolName : String) (args : PyDict) : Except ClassifyError Bool :=
  if r.tool == "*" || r.tool == toolName then
    match r.matcher with
    | none => .ok true
    | some m => m args
  else .ok false

/-- The reason of a decision by the rule. -/
def reasonText (r : Rule) : String :=
  match r.reason with
  | none | some "" => "classified by policy rule"
  | some reason => reason

end Rule

/-- `_DEFAULT_RULES`. -/
def defaultRules : List Rule :=
  [ { tool := "delete_namespace", matcher := none, tier := .prohibited, tool_ne := by decide
      reason := some ("Namespace deletion is prohibited: it destroys every resource " ++
        "inside the namespace and is not reversible.") },
    { tool := "drop_table", matcher := none, tier := .prohibited, tool_ne := by decide
      reason := some "Table drop is prohibited: it destroys all rows permanently." },
    { tool := "*", matcher := some (.total isSystemNamespace), tier := .prohibited
      tool_ne := by decide
      reason := some ("Actions targeting system namespaces (kube-system, kube-public, " ++
        "kube-node-lease, cert-manager) are prohibited.") },
    { tool := "delete_database_row", matcher := none, tier := .irreversibleBounded
      tool_ne := by decide
      reason := some ("Row deletion is irreversible; requires human approval even " ++
        "though the blast radius is bounded to one row.") },
    { tool := "scale_deployment", matcher := some (.total isScaleToZero)
      tier := .reversibleHigh, tool_ne := by decide
      reason := some ("Scaling a deployment to zero replicas takes the service offline; " ++
        "requires human approval.") },
    { tool := "set_feature_flag", matcher := none, tier := .reversibleHigh, tool_ne := by decide
      reason := some
        "Feature flag changes can affect many requests; requires human approval." },
    { tool := "scale_deployment", matcher := some (.total isScalePositive)
      tier := .reversibleLow, tool_ne := by decide
      reason := some
        "Scaling to a positive replica count is reversible with a bounded blast radius." },
    { tool := "restart_deployment", matcher := none, tier := .reversibleLow, tool_ne := by decide
      reason := some "Rollout restart is reversible with low blast radius." },
    { tool := "terminate_backend", matcher := none, tier := .reversibleLow, tool_ne := by decide
      reason := some ("Terminating a single Postgres backend is bounded and reversible " ++
        "because the client can reconnect.") },
    { tool := "delete_valkey_key", matcher := none, tier := .reversibleLow, tool_ne := by decide
      reason := some "Deleting one exact cache key is bounded and reversible." } ]

/-! ## The engine -/

/-- A constructed `PolicyEngine`. -/
structure PolicyEngine where
  rules : List Rule
  maxAutonomous : RiskTier
  allowedNamespaces : List String
  namespaces_ne : ∀ ns ∈ allowedNamespaces, ns ≠ ""

namespace PolicyEngine

/-- `PolicyEngine()`. -/
def default : PolicyEngine where
  rules := defaultRules
  maxAutonomous := .reversibleLow
  allowedNamespaces := ["rivulet", "sre"]
  namespaces_ne := by decide

/-- The reason that an operation is hard-blocked, whatever the rules (`_HARD_BLOCKED_TOOLS`). -/
def hardBlocked? : String → Option String
  | "delete_namespace" =>
    some ("Namespace deletion is prohibited: it destroys every " ++
      "resource inside the namespace and is not reversible.")
  | "drop_table" => some "Table drop is prohibited: it destroys all rows permanently."
  | _ => none

/-- The check of the `namespace` argument. -/
def rejectNamespace? (p : PolicyEngine) (args : PyDict) : Option String :=
  match PyDict.get? args "namespace" with
  | none | some .null => none
  | some (.str ns) =>
    if ns = "" then some "namespace must be non-empty when provided"
    else if ns ∉ p.allowedNamespaces then
      some ("namespace '" ++ ns ++ "' is not in allowed set " ++
        reprStrs (sorted p.allowedNamespaces))
    else none
  | some _ => some "namespace must be a string when provided"

/-- The reason to reject a call before rule evaluation. -/
def reject? (p : PolicyEngine) (toolName : String) (args : PyDict) : Option String :=
  match p.rejectNamespace? args with
  | some reason => some reason
  | none =>
    if hasWildcardArguments args then
      some "wildcard or glob characters (*, ?, []) are not permitted in action arguments"
    else
      match hardBlocked? toolName with
      | some reason => some reason
      | none =>
        if toolName = "scale_deployment" ∧ isInvalidScale args then
          some "scale_deployment requires a non-negative integer 'replicas' argument"
        else none

/-- `_build_decision`. -/
def buildDecision (p : PolicyEngine) (tier : RiskTier) (reason : String) : PolicyDecision :=
  if tier = .prohibited then rejection reason
  else
    { allowed := true, riskTier := tier, reason
      requiresApproval := decide (p.maxAutonomous.value < tier.value) }

/-- A decision that is not allowed is raised as `PolicyRejectionError`. -/
def raiseUnlessAllowed (d : PolicyDecision) : Except ClassifyError PolicyDecision :=
  if d.allowed then .ok d else .error (.rejected d)

/-- The loop over the rules; `baseTier` decides when none applies. -/
def classifyByRules (p : PolicyEngine) (toolName : String) (args : PyDict) (baseTier : RiskTier) :
    List Rule → Except ClassifyError PolicyDecision
  | [] =>
    raiseUnlessAllowed (p.buildDecision baseTier
      ("no rule matched; using tool's declared tier " ++ toString baseTier.value))
  | r :: rs =>
    match r.applies toolName args with
    | .error e => .error e
    | .ok true => raiseUnlessAllowed (p.buildDecision r.tier r.reasonText)
    | .ok false => p.classifyByRules toolName args baseTier rs

/-- `classify`. -/
def classify (p : PolicyEngine) (toolName : String) (args : PyDict) (baseTier : Json) :
    Except ClassifyError PolicyDecision :=
  if toolName = "" then .error (.rejected (rejection "tool name must be a non-empty string"))
  else
    match RiskTier.ofJson? baseTier with
    | none =>
      .error (.rejected (rejection ("invalid declared tool risk tier: " ++ baseTier.repr)))
    | some tier =>
      match p.reject? toolName args with
      | some reason => .error (.rejected (rejection reason))
      | none => p.classifyByRules toolName args tier p.rules

/-! ## The first rule that applies -/

/-- The first of the rules that applies, or what a matcher before it raises. -/
def firstOf (toolName : String) (args : PyDict) : List Rule → Except ClassifyError (Option Rule)
  | [] => .ok none
  | r :: rs =>
    match r.applies toolName args with
    | .error e => .error e
    | .ok true => .ok (some r)
    | .ok false => firstOf toolName args rs

/-- The first rule of the engine that applies to the call. -/
def firstMatch (p : PolicyEngine) (toolName : String) (args : PyDict) :
    Except ClassifyError (Option Rule) :=
  firstOf toolName args p.rules

/-- The tier that the policy gives a call: that of the first rule that applies, else the base
tier. -/
def tierOf (p : PolicyEngine) (toolName : String) (args : PyDict) (baseTier : RiskTier) :
    Except ClassifyError RiskTier :=
  (p.firstMatch toolName args).map fun r => (r.map Rule.tier).getD baseTier

/-- A matcher that is asked about the call raises another exception than a rejection: no rule before
it applies. -/
def MatcherRaises (p : PolicyEngine) (toolName : String) (args : PyDict) (exc : PyExc) : Prop :=
  ∃ pre r post, p.rules = pre ++ r :: post ∧
    (∀ q ∈ pre, q.applies toolName args = .ok false) ∧
    r.applies toolName args = .error (.raised exc)

section firstOf

variable {p : PolicyEngine} {toolName : String} {args : PyDict} {baseTier : RiskTier}
  {rs : List Rule}

theorem firstOf_raised_iff {exc : PyExc} :
    firstOf toolName args rs = .error (.raised exc) ↔ ∃ pre r post, rs = pre ++ r :: post ∧
      (∀ q ∈ pre, q.applies toolName args = .ok false) ∧
      r.applies toolName args = .error (.raised exc) := by
  induction rs with
  | nil => simp [firstOf]
  | cons r rs ih =>
    constructor
    · intro h
      unfold firstOf at h
      split at h
      · next e he =>
        cases h
        exact ⟨[], r, rs, rfl, List.forall_mem_nil _, he⟩
      · cases h
      · next hfalse =>
        obtain ⟨pre, r', post, rfl, hpre, hr'⟩ := ih.mp h
        exact ⟨r :: pre, r', post, rfl, List.forall_mem_cons.mpr ⟨hfalse, hpre⟩, hr'⟩
    · rintro ⟨pre, r', post, hsplit, hpre, hr'⟩
      cases pre with
      | nil =>
        cases hsplit
        rw [firstOf, hr']
      | cons q pre =>
        cases hsplit
        obtain ⟨hq, hpre⟩ := List.forall_mem_cons.mp hpre
        rw [firstOf, hq]
        exact ih.mpr ⟨pre, r', post, rfl, hpre, hr'⟩

theorem tierOf_eq_ok {tier : RiskTier} :
    p.tierOf toolName args baseTier = .ok tier ↔
      ∃ r, p.firstMatch toolName args = .ok r ∧ tier = (r.map Rule.tier).getD baseTier := by
  rw [tierOf]
  cases p.firstMatch toolName args with
  | error e => simp [Except.map]
  | ok r => simp [Except.map, eq_comm]

theorem raiseUnlessAllowed_build {tier : RiskTier} {reason : String} {d : PolicyDecision}
    (h : raiseUnlessAllowed (p.buildDecision tier reason) = .ok d) :
    tier ≠ .prohibited ∧ d.allowed = true ∧ d.riskTier = tier ∧
      d.requiresApproval = decide (p.maxAutonomous.value < tier.value) := by
  unfold raiseUnlessAllowed buildDecision at h
  by_cases ht : tier = .prohibited
  · simp [ht, rejection] at h
  · simp only [ht, if_false, if_true, Except.ok.injEq] at h
    subst h
    exact ⟨ht, rfl, rfl, rfl⟩

theorem raiseUnlessAllowed_ne_raised (d : PolicyDecision) (exc : PyExc) :
    raiseUnlessAllowed d ≠ .error (.raised exc) := by
  unfold raiseUnlessAllowed
  split <;> simp

/-- The loop decides by the first rule that applies. -/
theorem classifyByRules_eq :
    p.classifyByRules toolName args baseTier rs =
      (firstOf toolName args rs).bind fun
        | some r => raiseUnlessAllowed (p.buildDecision r.tier r.reasonText)
        | none => raiseUnlessAllowed (p.buildDecision baseTier
            ("no rule matched; using tool's declared tier " ++ toString baseTier.value)) := by
  induction rs with
  | nil => rfl
  | cons r rs ih =>
    rw [classifyByRules, firstOf]
    split
    · rfl
    · rfl
    · exact ih

theorem classifyByRules_ok {d : PolicyDecision}
    (h : p.classifyByRules toolName args baseTier rs = .ok d) :
    ∃ r, firstOf toolName args rs = .ok r ∧ d.riskTier = (r.map Rule.tier).getD baseTier ∧
      d.riskTier ≠ .prohibited ∧ d.allowed = true ∧
      d.requiresApproval = decide (p.maxAutonomous.value < d.riskTier.value) := by
  rw [classifyByRules_eq] at h
  cases hr : firstOf toolName args rs with
  | error e =>
    rw [hr] at h
    cases h
  | ok r =>
    rw [hr] at h
    cases r with
    | none | some r =>
      obtain ⟨hne, hallowed, htier, happroval⟩ := raiseUnlessAllowed_build h
      exact ⟨_, rfl, htier, htier ▸ hne, hallowed, htier ▸ happroval⟩

end firstOf

/-! ## What `classify` decides -/

section classify

variable {p : PolicyEngine} {toolName : String} {args : PyDict}

/-- An accepted call has the tier of the first rule that applies, else the base tier, and needs
approval above the autonomous threshold. -/
theorem classify_ok {baseTier : RiskTier} {d : PolicyDecision}
    (h : p.classify toolName args (.int baseTier.value) = .ok d) :
    p.tierOf toolName args baseTier = .ok d.riskTier ∧ d.riskTier ≠ .prohibited ∧
      d.allowed = true ∧
      d.requiresApproval = decide (p.maxAutonomous.value < d.riskTier.value) := by
  unfold classify at h
  simp only [RiskTier.ofJson?_int, RiskTier.ofInt?_value] at h
  split at h
  · cases h
  split at h
  · cases h
  obtain ⟨r, hfirst, htier, hne, hallowed, happroval⟩ := classifyByRules_ok h
  exact ⟨tierOf_eq_ok.mpr ⟨r, hfirst, htier⟩, hne, hallowed, happroval⟩

/-- Another exception than a rejection is that of a matcher, after the checks. -/
theorem classify_raised_iff {baseTier : RiskTier} {exc : PyExc} :
    p.classify toolName args (.int baseTier.value) = .error (.raised exc) ↔
      toolName ≠ "" ∧ p.reject? toolName args = none ∧ p.MatcherRaises toolName args exc := by
  unfold classify
  simp only [RiskTier.ofJson?_int, RiskTier.ofInt?_value]
  by_cases hname : toolName = ""
  · simp [hname]
  cases hreject : p.reject? toolName args with
  | some reason => simp [hname]
  | none =>
    simp only [hname, if_false, ne_eq, not_false_eq_true, true_and]
    unfold MatcherRaises
    rw [← firstOf_raised_iff, classifyByRules_eq]
    cases firstOf toolName args p.rules with
    | error e => simp [Except.bind]
    | ok r => cases r <;> simp [Except.bind, raiseUnlessAllowed_ne_raised]

/-- A higher base tier never gets a lower tier. -/
theorem tierOf_mono {a b : RiskTier} (hab : a.value ≤ b.value) {tier : RiskTier}
    (h : p.tierOf toolName args b = .ok tier) :
    ∃ tier', p.tierOf toolName args a = .ok tier' ∧ tier'.value ≤ tier.value := by
  obtain ⟨r, hr, rfl⟩ := tierOf_eq_ok.mp h
  refine ⟨_, tierOf_eq_ok.mpr ⟨r, hr, rfl⟩, ?_⟩
  cases r with
  | none => exact hab
  | some r => exact Int.le_refl _

end classify

end PolicyEngine

end Safety
end AutoSRE
