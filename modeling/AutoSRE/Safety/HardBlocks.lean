import AutoSRE.Safety.Policy

/-!
# The hard blocks of the policy engine

- **Validation** (`RawRule`, `validateRules`). The rule dictionaries that a caller may hand to
  `PolicyEngine`, and what `_validate_rules` makes of them. A matcher is any callable: it may
  raise, and nothing is known of what it accepts. `PolicyEngine.init` is `__init__`.
- **Strings in a value** (`Occurs`). The traversal of `_contains_wildcard` reaches every string of
  a JSON-like value, mapping keys included (`containsWildcard_iff`).
- **Hard blocks** (`HardBlocked`). What is rejected before the first rule is looked at.
-/

namespace AutoSRE
namespace Safety

open Py

/-! ## Validation -/

/-- The `match` entry of a rule dictionary: absent or `None`, a callable, or anything else. -/
inductive MatchEntry where
  | missing
  | callable (m : Matcher)
  | other

/-- A rule dictionary, before its validation. -/
structure RawRule where
  tool : Option Json
  tier : Option Json
  matcher : MatchEntry
  reason : Option Json

/-- One turn of the loop of `_validate_rules`; `none` is a rule that is no `dict`. -/
def validateRule (index : Nat) : Option RawRule → Except PyExc Rule
  | none => .error (.typeError s!"policy rule {index} must be a dict")
  | some raw =>
    match raw.tool with
    | some (.str tool) =>
      if h : tool = "" then .error (.valueError s!"policy rule {index} has an invalid tool")
      else
        match raw.tier.bind RiskTier.ofJson? with
        | none => .error (.valueError s!"policy rule {index} has an invalid tier")
        | some tier =>
          let matcher : Except PyExc (Option Matcher) :=
            match raw.matcher with
            | .missing => .ok none
            | .callable m => .ok (some m)
            | .other => .error (.typeError s!"policy rule {index} match must be callable")
          match matcher, raw.reason with
          | .error exc, _ => .error exc
          | .ok m, none | .ok m, some .null => .ok ⟨tool, m, tier, none, h⟩
          | .ok m, some (.str reason) => .ok ⟨tool, m, tier, some reason, h⟩
          | .ok _, some _ => .error (.typeError s!"policy rule {index} reason must be a string")
    | _ => .error (.valueError s!"policy rule {index} has an invalid tool")

/-- `_validate_rules`, from the rule with the number `index` on. -/
def validateRules : Nat → List (Option RawRule) → Except PyExc (List Rule)
  | _, [] => .ok []
  | index, raw :: rest =>
    match validateRule index raw with
    | .error exc => .error exc
    | .ok r =>
      match validateRules (index + 1) rest with
      | .error exc => .error exc
      | .ok rs => .ok (r :: rs)

/-- The namespaces as strings; `none` if one of the values is no string. -/
def namespaceTexts : List Json → Option (List String)
  | [] => some []
  | .str s :: rest => (namespaceTexts rest).map (s :: ·)
  | _ :: _ => none

namespace PolicyEngine

/-- `PolicyEngine.__init__`. -/
def init (rules : Option (List (Option RawRule))) (maxAutonomousTier : Json)
    (allowedNamespaces : Option (List Json)) : Except PyExc PolicyEngine :=
  match RiskTier.ofJson? maxAutonomousTier with
  | none => .error (.valueError ("invalid max_autonomous_tier: " ++ maxAutonomousTier.repr))
  | some maxAutonomous =>
    match namespaceTexts (allowedNamespaces.getD [.str "rivulet", .str "sre"]) with
    | none => .error (.valueError "allowed_namespaces must contain non-empty strings")
    | some namespaces =>
      if h : ∀ ns ∈ namespaces, ns ≠ "" then
        match rules.map (validateRules 0) with
        | none => .ok ⟨defaultRules, maxAutonomous, namespaces, h⟩
        | some (.ok rules) => .ok ⟨rules, maxAutonomous, namespaces, h⟩
        | some (.error exc) => .error exc
      else .error (.valueError "allowed_namespaces must contain non-empty strings")

/-- A constructed engine has the threshold and the allowlist that it was given. -/
theorem init_ok {rules : Option (List (Option RawRule))} {maxTier : Json}
    {allowed : Option (List Json)} {p : PolicyEngine} (h : init rules maxTier allowed = .ok p) :
    RiskTier.ofJson? maxTier = some p.maxAutonomous ∧
      namespaceTexts (allowed.getD [.str "rivulet", .str "sre"]) = some p.allowedNamespaces := by
  unfold init at h
  split at h
  · cases h
  split at h
  · cases h
  split at h
  · split at h <;> cases h <;> exact ⟨‹_›, ‹_›⟩
  · cases h

end PolicyEngine

/-! ## Strings in a value -/

/-- The string occurs in the value: as itself, as a mapping key, or in an item at any depth. -/
inductive Occurs (s : String) : Json → Prop where
  | self : Occurs s (.str s)
  | item {x : Json} {xs : List Json} (hx : x ∈ xs) (h : Occurs s x) : Occurs s (.arr xs)
  | key {v : Json} {d : List (String × Json)} (hd : (s, v) ∈ d) : Occurs s (.obj d)
  | value {k : String} {v : Json} {d : List (String × Json)} (hd : (k, v) ∈ d)
      (h : Occurs s v) : Occurs s (.obj d)

/-- The string contains one of `*`, `?`, `[` and `]`. -/
def HasGlob (s : String) : Prop := ∃ c ∈ s.toList, isGlob c = true

theorem anyContainsWildcard_iff (xs : List Json) :
    anyContainsWildcard xs = true ↔ ∃ x ∈ xs, containsWildcard x = true := by
  induction xs with
  | nil => simp [anyContainsWildcard]
  | cons x xs ih => simp [anyContainsWildcard, ih]

theorem itemsContainWildcard_iff (d : List (String × Json)) :
    itemsContainWildcard d = true ↔
      ∃ p ∈ d, HasGlob p.1 ∨ containsWildcard p.2 = true := by
  induction d with
  | nil => simp [itemsContainWildcard]
  | cons p d ih => simp [itemsContainWildcard, ih, HasGlob]

theorem containsWildcard_of_occurs {s : String} (hs : HasGlob s) {v : Json} (h : Occurs s v) :
    containsWildcard v = true := by
  induction h with
  | self => exact List.any_eq_true.mpr hs
  | item hx _ ih => exact (anyContainsWildcard_iff _).mpr ⟨_, hx, ih⟩
  | key hd => exact (itemsContainWildcard_iff _).mpr ⟨_, hd, .inl hs⟩
  | value hd _ ih => exact (itemsContainWildcard_iff _).mpr ⟨_, hd, .inr ih⟩

mutual
/-- What the traversal finds is a string with a glob character. -/
theorem occurs_of_containsWildcard : ∀ v : Json, containsWildcard v = true →
    ∃ s, Occurs s v ∧ HasGlob s
  | .str s, h => ⟨s, .self, List.any_eq_true.mp h⟩
  | .arr xs, h => by
    obtain ⟨x, hx, s, ho, hs⟩ := occurs_of_anyContainsWildcard xs h
    exact ⟨s, .item hx ho, hs⟩
  | .obj d, h => by
    obtain ⟨⟨k, v⟩, hp, hk | ⟨s, ho, hs⟩⟩ := occurs_of_itemsContainWildcard d h
    · exact ⟨k, .key hp, hk⟩
    · exact ⟨s, .value hp ho, hs⟩
theorem occurs_of_anyContainsWildcard : ∀ xs : List Json, anyContainsWildcard xs = true →
    ∃ x ∈ xs, ∃ s, Occurs s x ∧ HasGlob s
  | x :: xs, h => by
    rcases Bool.or_eq_true_iff.mp h with hx | hxs
    · exact ⟨x, List.mem_cons_self, occurs_of_containsWildcard x hx⟩
    · obtain ⟨y, hy, hs⟩ := occurs_of_anyContainsWildcard xs hxs
      exact ⟨y, List.mem_cons_of_mem x hy, hs⟩
theorem occurs_of_itemsContainWildcard : ∀ d : List (String × Json),
    itemsContainWildcard d = true → ∃ p ∈ d, HasGlob p.1 ∨ ∃ s, Occurs s p.2 ∧ HasGlob s
  | (k, v) :: d, h => by
    rcases Bool.or_eq_true_iff.mp h with hkv | hd
    · refine ⟨(k, v), List.mem_cons_self, ?_⟩
      rcases Bool.or_eq_true_iff.mp hkv with hk | hv
      · exact .inl (List.any_eq_true.mp hk)
      · exact .inr (occurs_of_containsWildcard v hv)
    · obtain ⟨p, hp, hs⟩ := occurs_of_itemsContainWildcard d hd
      exact ⟨p, List.mem_cons_of_mem _ hp, hs⟩
end

/-- The traversal finds exactly the values in which a string with a glob character occurs. -/
theorem containsWildcard_iff (v : Json) :
    containsWildcard v = true ↔ ∃ s, Occurs s v ∧ HasGlob s :=
  ⟨occurs_of_containsWildcard v, fun ⟨_, ho, hs⟩ => containsWildcard_of_occurs hs ho⟩

/-! ## Hard blocks -/

/-- The value is a non-negative replica count: an integer, or a text that `int(text, 10)` reads. -/
def IsReplicaCount (v : Json) (n : Int) : Prop :=
  0 ≤ n ∧ (v = .int n ∨ ∃ s, v = .str s ∧ intOfText s = some n)

/-- The calls that are never classified, whatever the rules and the tiers. -/
inductive HardBlocked (allowedNamespaces : List String) (toolName : String) (args : PyDict) :
    Prop where
  | tool (h : toolName = "delete_namespace" ∨ toolName = "drop_table")
  | outside {v : Json} (hv : PyDict.get? args "namespace" = some v) (hnull : v ≠ .null)
      (h : ∀ ns ∈ allowedNamespaces, v ≠ .str ns)
  | wildcard {s k : String} {v : Json} (hv : (k, v) ∈ args) (ho : Occurs s v) (hs : HasGlob s)
  | scale (ht : toolName = "scale_deployment")
      (h : ∀ v, PyDict.get? args "replicas" = some v → ∀ n, ¬ IsReplicaCount v n)

theorem hasWildcardArguments_of_occurs {args : PyDict} {s k : String} {v : Json}
    (hv : (k, v) ∈ args) (ho : Occurs s v) (hs : HasGlob s) :
    hasWildcardArguments args = true :=
  List.any_eq_true.mpr ⟨(k, v), hv, containsWildcard_of_occurs hs ho⟩

theorem rejectNamespace_of_not_allowed {p : PolicyEngine} {args : PyDict} {v : Json}
    (hv : PyDict.get? args "namespace" = some v) (hnull : v ≠ .null)
    (h : ∀ ns ∈ p.allowedNamespaces, v ≠ .str ns) : p.rejectNamespace? args ≠ none := by
  unfold PolicyEngine.rejectNamespace?
  rw [hv]
  cases v with
  | null => exact absurd rfl hnull
  | str ns =>
    have hns : ns ∉ p.allowedNamespaces := fun hmem => h ns hmem rfl
    by_cases he : ns = "" <;> simp [he, hns]
  | _ => simp

theorem parseReplicas_eq_some {v : Option Json} {n : Int} (h : parseReplicas v = some n) :
    v = some (.int n) ∨ ∃ s, v = some (.str s) ∧ intOfText s = some n := by
  unfold parseReplicas at h
  split at h
  · cases h
    exact .inl rfl
  · exact .inr ⟨_, rfl, h⟩
  · cases h

theorem isInvalidScale_of_no_count {args : PyDict}
    (h : ∀ v, PyDict.get? args "replicas" = some v → ∀ n, ¬ IsReplicaCount v n) :
    isInvalidScale args = true := by
  unfold isInvalidScale
  cases hr : replicas args with
  | none => rfl
  | some n =>
    refine decide_eq_true (Int.not_le.mp fun hn => ?_)
    rcases parseReplicas_eq_some hr with hv | ⟨s, hv, hs⟩
    · exact h _ hv n ⟨hn, .inl rfl⟩
    · exact h _ hv n ⟨hn, .inr ⟨s, rfl, hs⟩⟩

/-- A hard-blocked call is rejected by the checks before the rules. -/
theorem reject_of_hardBlocked {p : PolicyEngine} {toolName : String} {args : PyDict}
    (h : HardBlocked p.allowedNamespaces toolName args) : p.reject? toolName args ≠ none := by
  unfold PolicyEngine.reject?
  cases hns : p.rejectNamespace? args with
  | some reason => simp
  | none =>
    -- The namespace passes, so one of the later checks is the one that rejects.
    cases h with
    | tool ht =>
      have hblock : ∃ reason, PolicyEngine.hardBlocked? toolName = some reason := by
        rcases ht with rfl | rfl <;> exact ⟨_, rfl⟩
      obtain ⟨reason, hreason⟩ := hblock
      simp only [hreason]
      split <;> simp
    | outside hv hnull h => exact absurd hns (rejectNamespace_of_not_allowed hv hnull h)
    | wildcard hv ho hs => simp [hasWildcardArguments_of_occurs hv ho hs]
    | scale ht h =>
      subst ht
      simp only [isInvalidScale_of_no_count h, and_self, if_true]
      split
      · simp
      · split <;> simp

/-- An engine, with any rules and matchers, raises a rejection for every hard-blocked call; a
decision that it returns is below the prohibited tier and requires approval exactly above the
autonomous one. -/
theorem hardBlocked_rejected (p : PolicyEngine) (toolName : String) (args : PyDict)
    (baseTier : Json) :
    (HardBlocked p.allowedNamespaces toolName args →
      ∃ d, p.classify toolName args baseTier = .error (.rejected d)) ∧
    ∀ d, p.classify toolName args baseTier = .ok d →
      d.riskTier.value < RiskTier.prohibited.value ∧
        (d.requiresApproval = true ↔ p.maxAutonomous.value < d.riskTier.value) := by
  unfold PolicyEngine.classify
  split
  · exact ⟨fun _ => ⟨_, rfl⟩, nofun⟩
  split
  · exact ⟨fun _ => ⟨_, rfl⟩, nofun⟩
  cases hr : p.reject? toolName args with
  | some reason => exact ⟨fun _ => ⟨_, rfl⟩, nofun⟩
  | none =>
    refine ⟨fun h => absurd hr (reject_of_hardBlocked h), fun d hd => ?_⟩
    obtain ⟨-, -, -, hne, -, happroval⟩ := PolicyEngine.classifyByRules_ok hd
    have hlt : d.riskTier.value < RiskTier.prohibited.value :=
      Int.not_le.mp fun h => hne (RiskTier.prohibited_of_le h)
    exact ⟨hlt, by rw [happroval, decide_eq_true_eq]⟩

/-- A `namespace` argument that is `None` counts as not provided: the call is classified. -/
theorem null_namespace_classified :
    ¬ ∀ (p : PolicyEngine) (toolName : String) (args : PyDict) (baseTier v : Json),
      PyDict.get? args "namespace" = some v → (∀ ns ∈ p.allowedNamespaces, v ≠ .str ns) →
      ∃ d, p.classify toolName args baseTier = .error (.rejected d) := by
  intro h
  obtain ⟨d, hd⟩ := h PolicyEngine.default "restart_deployment" [("namespace", .null)]
    (.int 1) .null rfl (by simp)
  have hok : ∃ d, PolicyEngine.default.classify "restart_deployment"
      [("namespace", .null)] (.int 1) = .ok d := ⟨_, rfl⟩
  obtain ⟨d', hd'⟩ := hok
  rw [hd'] at hd
  cases hd

end Safety
end AutoSRE
