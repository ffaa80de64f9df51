import AutoSRE.Core.Router
import AutoSRE.Lib.Clamp
import AutoSRE.Python.Pattern
import Mathlib.Algebra.Order.Ring.Rat
import Mathlib.Data.List.TakeWhile
import Mathlib.Order.Interval.Set.Basic
import Mathlib.Tactic.Linarith
import Mathlib.Tactic.Ring

/-!
# The backoff of the router (`core/router.py`)

`_compute_backoff` with the error it reads, its arithmetic over the rationals.

- **Hints** (`extractRetryAfter`). The seconds of a `Retry-After` header, else of the message,
  where the first match counts (`messageHint_iff`). They are at least zero
  (`extractRetryAfter_some`).
- **Caps** (`capBackoff`). The least of the wait and the two caps, as Python's floats compare
  (`capBackoff_eq`).
- **Growth** (`base_mono`). Without a hint the base does not decrease.
- **Jitter** (`computeBackoff`). It comes after the caps. So the ceiling holds exactly when the
  jitter fits under it (`backoff_ceiling_iff`), and one tenth above it always (`computeBackoff_le`).
-/

namespace AutoSRE
namespace Core
namespace Backoff

open Py Lib

/-! ## The hint of the provider -/

/-- What `_extract_retry_after` reads of an error. -/
structure RaisedError where
  /-- `error.response.headers.get`, if there is a response and its headers are a mapping. -/
  headers : Option (String → Json) := none
  /-- `str(error)`. -/
  text : String := ""

/-- `[\d.]`. -/
def isNumeral (c : Char) : Bool := c == '.' || (decimalValue c).isSome

/-- The group of `try again in ([\d.]+)\s*s`, matched at the start of a text. No numeral is a blank
or an `s`, and no blank is an `s`: a match takes all the numerals and then all the blanks. -/
def hintAt (cs : List Char) : Option (List Char) :=
  (afterPhrase "try again in ".toList cs).bind fun rest =>
    let group := rest.takeWhile isNumeral
    let last := (rest.dropWhile isNumeral).dropWhile isSpace
    if group ≠ [] ∧ last.head?.any (matchesLetter 's') then some group else none

/-- `if value >= 0: return value`. -/
def atLeastZero (value : PyFloat) : Option PyFloat :=
  if PyFloat.le .zero value then some value else none

/-- The hint of a message. -/
def messageHint (text : String) : Option PyFloat :=
  (searchFirst hintAt text.toList).bind fun group =>
    (floatOfText (String.ofList group)).bind atLeastZero

/-- `headers.get("retry-after") or headers.get("Retry-After")`. -/
def retryAfterHeader (get : String → Json) : Json :=
  if (get "retry-after").truthy then get "retry-after" else get "Retry-After"

/-- The hint of the headers. -/
def headerHint (error : RaisedError) : Except PyExc (Option PyFloat) :=
  match error.headers with
  | none => .ok none
  | some get =>
    match retryAfterHeader get with
    | .null => .ok none
    | value =>
      match value.toFloat with
      | .ok seconds => .ok (atLeastZero seconds)
      | .error (.typeError _) | .error (.valueError _) => .ok none
      | .error exc => .error exc

/-- `_extract_retry_after`. -/
def extractRetryAfter (error : RaisedError) : Except PyExc (Option PyFloat) :=
  (headerHint error).map fun hint => hint.or (messageHint error.text)

/-! ## The backoff -/

/-- The backoff grows linearly in the first three attempts, then exponentially. -/
def growth (attempt : Nat) : Nat := if attempt < 3 then attempt + 1 else 2 ^ attempt

/-- `_JITTER_FRACTION`. -/
def jitterFraction : ℚ := 1 / 10

/-- `random.uniform(a, b)`, when `random.random()` gives `u`. -/
def uniform (a b u : ℚ) : ℚ := a + (b - a) * u

section backoff

variable (cfg : DispatchConfig)

/-- `min(max_backoff, absolute_backoff_cap)`. -/
def ceiling : ℚ := min cfg.maxBackoff cfg.absoluteBackoffCap

/-- `max(0.0, min(x, self.max_backoff, self.absolute_backoff_cap))`. -/
def capBackoff : PyFloat → ℚ
  | .finite x => max 0 (min (min x cfg.maxBackoff) cfg.absoluteBackoffCap)
  | .inf false => max 0 (min cfg.maxBackoff cfg.absoluteBackoffCap)
  | .inf true | .nan => 0

/-- The wait before the caps: the hint, or `raw`. -/
def wanted (attempt : Nat) (hint : Option PyFloat) : PyFloat :=
  hint.getD (.finite (cfg.initialBackoff * growth attempt))

/-- `base`. -/
def base (attempt : Nat) (hint : Option PyFloat) : ℚ := capBackoff cfg (wanted cfg attempt hint)

/-- `_compute_backoff`, when `random.random()` gives `u`. -/
def computeBackoff (attempt : Nat) (error : RaisedError) (u : Set.Icc (0 : ℚ) 1) :
    Except PyExc ℚ :=
  (extractRetryAfter error).map fun hint =>
    base cfg attempt hint + uniform 0 (base cfg attempt hint * jitterFraction) u

end backoff

/-! ## What the pattern matches -/

/-- No decimal digit is a blank or matches `s`. -/
theorem digit_ends : ∀ z ∈ digitZeros, ∀ k < 10,
    isSpace (Char.ofNat (z + k)) = false ∧ matchesLetter 's' (Char.ofNat (z + k)) = false := by
  decide +kernel

theorem numeral_ends {c : Char} (h : isNumeral c = true) :
    isSpace c = false ∧ matchesLetter 's' c = false := by
  rcases Bool.or_eq_true_iff.mp h with hdot | hdigit
  · rw [beq_iff_eq.mp hdot]
    decide
  · obtain ⟨d, hd⟩ := Option.isSome_iff_exists.mp hdigit
    obtain ⟨z, hz, hval⟩ := List.exists_of_findSome?_eq_some hd
    split at hval
    · next hrange =>
      have hend := digit_ends z hz (c.toNat - z) (by omega)
      rwa [Nat.add_sub_cancel' hrange.1, Char.ofNat_toNat] at hend
    · cases hval

theorem blank_ends {c : Char} (h : isSpace c = true) : matchesLetter 's' c = false := by
  have hcode : ¬ (65 ≤ c.toNat ∧ c.toNat ≤ 90) ∧ c.toNat ≠ 115 ∧ c.toNat ≠ 0x17f := by
    simp only [isSpace, Bool.or_eq_true, Bool.and_eq_true, decide_eq_true_eq, beq_iff_eq] at h
    omega
  obtain ⟨hupper, hs, hlong⟩ := hcode
  have hlower : c.toLower = c := dif_neg hupper
  have hne : c ≠ 's' := fun heq => hs (congrArg Char.toNat heq)
  simp [matchesLetter, hlower, hne, hlong]

/-- A match of `try again in ([\d.]+)\s*s` at the start of a text. -/
inductive HintMatch (group : List Char) : List Char → Prop where
  | mk {phrase blanks : List Char} {s : Char} (rest : List Char)
      (hphrase : List.Forall₂ (fun p c => matchesLetter p c = true) "try again in ".toList phrase)
      (hne : group ≠ []) (hgroup : ∀ c ∈ group, isNumeral c = true)
      (hblanks : ∀ c ∈ blanks, isSpace c = true) (hs : matchesLetter 's' s = true) :
      HintMatch group (phrase ++ (group ++ (blanks ++ s :: rest)))

/-- The pattern matches in one way at most, which is the one that `hintAt` finds. -/
theorem hintAt_iff {group cs : List Char} : hintAt cs = some group ↔ HintMatch group cs := by
  constructor
  · intro h
    obtain ⟨rest, hafter, hrest⟩ := Option.bind_eq_some_iff.mp h
    obtain ⟨phrase, rfl, hphrase⟩ := afterPhrase_iff.mp hafter
    obtain ⟨⟨hne, hs⟩, hgroup⟩ := Option.ite_none_right_eq_some.mp hrest
    obtain ⟨s, hhead, hs⟩ := (Option.any_eq_true _ _).mp hs
    obtain ⟨last, hlast⟩ := List.head?_eq_some_iff.mp hhead
    cases hgroup
    have hsplit : rest = rest.takeWhile isNumeral ++
        ((rest.dropWhile isNumeral).takeWhile isSpace ++ s :: last) := by
      rw [← hlast, List.takeWhile_append_dropWhile, List.takeWhile_append_dropWhile]
    have hgroup : ∀ c ∈ rest.takeWhile isNumeral, isNumeral c = true :=
      fun _ => List.mem_takeWhile_imp
    have hblanks : ∀ c ∈ (rest.dropWhile isNumeral).takeWhile isSpace, isSpace c = true :=
      fun _ => List.mem_takeWhile_imp
    have hmatch := HintMatch.mk last hphrase hne hgroup hblanks hs
    rwa [← hsplit] at hmatch
  · rintro @⟨phrase, blanks, s, rest, hphrase, hne, hgroup, hblanks, hs⟩
    -- The numerals end where the blanks begin, and these where the `s` stands.
    have hnumerals : ∀ c ∈ (blanks ++ s :: rest).head?, isNumeral c = false := by
      intro c hc
      apply eq_false_of_ne_true
      intro hnumeral
      obtain ⟨hspace, hlast⟩ := numeral_ends hnumeral
      cases blanks <;> grind
    have hspaces : ∀ c ∈ (s :: rest).head?, isSpace c = false := by
      intro c hc
      apply eq_false_of_ne_true
      intro hspace
      have hlast := blank_ends hspace
      grind
    obtain ⟨htake, hdrop⟩ := takeWhile_run hgroup hnumerals
    obtain ⟨-, hblank⟩ := takeWhile_run hblanks hspaces
    refine Option.bind_eq_some_iff.mpr ⟨_, afterPhrase_iff.mpr ⟨phrase, rfl, hphrase⟩, ?_⟩
    simp only [htake, hdrop, hblank]
    exact if_pos ⟨hne, hs⟩

/-- The hint of a message is the number of its first match, if that is a number. -/
theorem messageHint_iff {text : String} {x : PyFloat} :
    messageHint text = some x ↔ ∃ cs group value,
      cs <:+ text.toList ∧ HintMatch group cs ∧
      (∀ earlier other, earlier <:+ text.toList → cs.length < earlier.length →
        ¬ HintMatch other earlier) ∧
      floatOfText (String.ofList group) = some value ∧ atLeastZero value = some x := by
  rw [messageHint, Option.bind_eq_some_iff]
  constructor
  · rintro ⟨group, hsearch, hvalue⟩
    obtain ⟨cs, hsuffix, hmatch, hfirst⟩ := searchFirst_iff.mp hsearch
    obtain ⟨value, hfloat, hzero⟩ := Option.bind_eq_some_iff.mp hvalue
    refine ⟨cs, group, value, hsuffix, hintAt_iff.mp hmatch, ?_, hfloat, hzero⟩
    intro earlier other hearlier hlt hother
    have hnone := hfirst earlier hearlier hlt
    rw [hintAt_iff.mpr hother] at hnone
    cases hnone
  · rintro ⟨cs, group, value, hsuffix, hmatch, hfirst, hfloat, hzero⟩
    refine ⟨group, searchFirst_iff.mpr ⟨cs, hsuffix, hintAt_iff.mpr hmatch, ?_⟩, ?_⟩
    · intro earlier hearlier hlt
      apply Option.eq_none_iff_forall_ne_some.mpr
      intro other hother
      exact hfirst earlier other hearlier hlt (hintAt_iff.mp hother)
    · exact Option.bind_eq_some_iff.mpr ⟨value, hfloat, hzero⟩

example : messageHint "Rate limit. Please TRY again in 7.5 s." = some (.finite (15 / 2)) ∧
    messageHint "try again in 1.2.3s" = none := by decide +kernel

/-! ## What a hint is -/

theorem map_eq_ok {α β ε : Type} {f : α → β} {r : Except ε α} {b : β}
    (h : r.map f = .ok b) : ∃ a, r = .ok a ∧ f a = b := by
  cases r with
  | error e => cases h
  | ok a => exact ⟨a, rfl, Except.ok.inj h⟩

/-- The hint of a header, or of a message, is at least zero: a number, or an infinity. -/
theorem atLeastZero_some {value x : PyFloat} (h : atLeastZero value = some x) :
    x = .inf false ∨ ∃ q, x = .finite q ∧ 0 ≤ q := by
  obtain ⟨hle, hx⟩ := Option.ite_none_right_eq_some.mp h
  cases hx
  cases value with
  | nan => cases hle
  | inf neg =>
    cases neg
    · exact .inl rfl
    · cases hle
  | finite q => exact .inr ⟨q, rfl, of_decide_eq_true hle⟩

theorem headerHint_some {error : RaisedError} {x : PyFloat}
    (h : headerHint error = .ok (some x)) : ∃ value, atLeastZero value = some x := by
  unfold headerHint at h
  split at h
  · cases h
  · split at h
    · cases h
    · split at h
      · exact ⟨_, Except.ok.inj h⟩
      all_goals cases h

theorem extractRetryAfter_some {error : RaisedError} {x : PyFloat}
    (h : extractRetryAfter error = .ok (some x)) : x = .inf false ∨ ∃ q, x = .finite q ∧ 0 ≤ q := by
  obtain ⟨hint, hheader, hor⟩ := map_eq_ok h
  rcases Option.or_eq_some_iff.mp hor with rfl | ⟨rfl, hmessage⟩
  · obtain ⟨value, hvalue⟩ := headerHint_some hheader
    exact atLeastZero_some hvalue
  · obtain ⟨group, -, hgroup⟩ := Option.bind_eq_some_iff.mp hmessage
    obtain ⟨value, -, hvalue⟩ := Option.bind_eq_some_iff.mp hgroup
    exact atLeastZero_some hvalue

/-- A `Retry-After` that is an integer is not too large for a float. -/
def HeaderConverts (error : RaisedError) : Prop :=
  ∀ get i, error.headers = some get → retryAfterHeader get = .int i →
    ∃ q, PyFloat.ofRat i = .finite q

/-- Of the errors of `float(value)`, only the `OverflowError` of an integer is not caught. -/
theorem toFloat_error {v : Json} {exc : PyExc} (h : v.toFloat = .error exc) :
    (∃ msg, exc = .typeError msg ∨ exc = .valueError msg) ∨
      ∃ i msg, v = .int i ∧ (∀ q, PyFloat.ofRat i ≠ .finite q) ∧ exc = .overflowError msg := by
  cases v with
  | bool b => cases h
  | float x => cases h
  | null | arr xs | obj d =>
    cases h
    exact .inl ⟨_, .inl rfl⟩
  | str s =>
    simp only [Json.toFloat] at h
    split at h
    · cases h
    · cases h
      exact .inl ⟨_, .inr rfl⟩
  | int i =>
    simp only [Json.toFloat] at h
    split at h
    · cases h
    · next hq =>
      cases h
      exact .inr ⟨i, _, rfl, hq, rfl⟩

theorem headerHint_ok_iff {error : RaisedError} :
    (∃ hint, headerHint error = .ok hint) ↔ HeaderConverts error := by
  constructor
  · rintro ⟨hint, hhint⟩ get i hget hi
    cases hq : PyFloat.ofRat i with
    | finite q => exact ⟨q, rfl⟩
    | nan | inf neg => simp [headerHint, hget, hi, Json.toFloat, hq] at hhint
  · intro h
    unfold headerHint
    split
    · exact ⟨_, rfl⟩
    · next get hget =>
      split
      · exact ⟨_, rfl⟩
      · split
        · exact ⟨_, rfl⟩
        · exact ⟨_, rfl⟩
        · exact ⟨_, rfl⟩
        · next exc htype hvalue hexc =>
          rcases toFloat_error hexc with ⟨msg, rfl | rfl⟩ | ⟨i, msg, hi, hq, -⟩
          · exact absurd rfl (htype msg)
          · exact absurd rfl (hvalue msg)
          · obtain ⟨q, hfloat⟩ := h get i hget hi
            exact absurd hfloat (hq q)

theorem extractRetryAfter_ok_iff {error : RaisedError} :
    (∃ hint, extractRetryAfter error = .ok hint) ↔ HeaderConverts error := by
  rw [← headerHint_ok_iff, extractRetryAfter]
  cases headerHint error with
  | error exc =>
    constructor
    · rintro ⟨hint, h⟩
      cases h
    · rintro ⟨hint, h⟩
      cases h
  | ok hint =>
    constructor
    · intro
      exact ⟨hint, rfl⟩
    · intro
      exact ⟨_, rfl⟩

theorem headerHint_error {error : RaisedError} {exc : PyExc} (h : headerHint error = .error exc) :
    ∃ message, exc = .overflowError message := by
  unfold headerHint at h
  split at h
  · cases h
  · split at h
    · cases h
    · split at h
      all_goals cases h
      next htype hvalue hexc =>
      rcases toFloat_error hexc with ⟨msg, rfl | rfl⟩ | ⟨-, msg, -, -, rfl⟩
      · exact absurd rfl (htype msg)
      · exact absurd rfl (hvalue msg)
      · exact ⟨msg, rfl⟩

/-! ## The caps -/

/-- `min(a, b)`. -/
def minFloat (a b : PyFloat) : PyFloat := if PyFloat.lt b a then b else a

variable (cfg : DispatchConfig)

theorem minFloat_finite (p q : ℚ) : minFloat (.finite p) (.finite q) = .finite (min p q) := by
  simp only [minFloat, PyFloat.lt, decide_eq_true_eq]
  split
  · next h => rw [min_eq_right h.le]
  · next h => rw [min_eq_left (not_lt.mp h)]

theorem max_zero_finite (q : ℚ) : PyFloat.max .zero (.finite q) = .finite (max 0 q) := by
  simp only [PyFloat.max, PyFloat.zero, PyFloat.lt, decide_eq_true_eq]
  split
  · next h => rw [max_eq_right h.le]
  · next h => rw [max_eq_left (not_lt.mp h)]

/-- The caps, as Python's floats compare: what they leave is a number for every float. -/
theorem capBackoff_eq (x : PyFloat) :
    PyFloat.max .zero (minFloat (minFloat x (.finite cfg.maxBackoff))
      (.finite cfg.absoluteBackoffCap)) = .finite (capBackoff cfg x) := by
  cases x with
  | nan => rfl
  | inf neg =>
    cases neg
    · have hmin : minFloat (.inf false) (.finite cfg.maxBackoff) = .finite cfg.maxBackoff := rfl
      rw [hmin, minFloat_finite, max_zero_finite]
      rfl
    · rfl
  | finite q =>
    rw [minFloat_finite, minFloat_finite, max_zero_finite]
    rfl

theorem capBackoff_finite (q : ℚ) : capBackoff cfg (.finite q) = clamp (ceiling cfg) q := by
  rw [capBackoff, min_assoc]
  rfl

theorem capBackoff_inf : capBackoff cfg (.inf false) = clamp (ceiling cfg) (ceiling cfg) :=
  (clamp_of_le le_rfl).symm

theorem capBackoff_bounds (x : PyFloat) :
    0 ≤ capBackoff cfg x ∧ capBackoff cfg x ≤ max 0 (ceiling cfg) := by
  cases x with
  | nan => exact ⟨le_rfl, le_max_left _ _⟩
  | inf neg =>
    cases neg
    · exact ⟨le_max_left _ _, le_rfl⟩
    · exact ⟨le_rfl, le_max_left _ _⟩
  | finite q =>
    rw [capBackoff_finite]
    exact ⟨clamp_nonneg _ _, clamp_le _ _⟩

variable {cfg}

/-! ## The growth -/

theorem growth_mono {i j : Nat} (h : i ≤ j) : growth i ≤ growth j := by
  have hpow : 3 ≤ j → 2 ^ 3 ≤ 2 ^ j := fun hj => Nat.pow_le_pow_right Nat.two_pos hj
  unfold growth
  split
  · split
    · omega
    · have := hpow (by omega)
      omega
  · rw [if_neg (by omega)]
    exact Nat.pow_le_pow_right Nat.two_pos h

/-- Without a hint, the base does not decrease, also when the configuration is malformed. -/
theorem base_mono {i j : Nat} (h : i ≤ j) : base cfg i none ≤ base cfg j none := by
  have hgrowth : (growth i : ℚ) ≤ growth j := by exact_mod_cast growth_mono h
  have hpos : (0 : ℚ) ≤ growth i := Nat.cast_nonneg _
  simp only [base, wanted, Option.getD_none, capBackoff_finite]
  rcases le_total 0 cfg.initialBackoff with hinit | hinit
  · exact clamp_mono (mul_le_mul_of_nonneg_left hgrowth hinit)
  · rw [clamp_of_nonpos (mul_nonpos_of_nonpos_of_nonneg hinit hpos)]
    exact clamp_nonneg _ _

/-! ## The ceiling -/

/-- The factor that the jitter puts on the base. -/
def jitterFactor (u : Set.Icc (0 : ℚ) 1) : ℚ := 1 + jitterFraction * u

theorem jitterFactor_bounds (u : Set.Icc (0 : ℚ) 1) :
    1 ≤ jitterFactor u ∧ jitterFactor u ≤ 11 / 10 := by
  obtain ⟨hu0, hu1⟩ := u.property
  simp only [jitterFactor, jitterFraction]
  constructor
  · linarith
  · linarith

theorem jitterFactor_eq_one_iff (u : Set.Icc (0 : ℚ) 1) : jitterFactor u = 1 ↔ (u : ℚ) = 0 := by
  simp only [jitterFactor, jitterFraction]
  constructor
  · intro h
    linarith
  · intro h
    linarith

theorem base_add_jitter (b : ℚ) (u : Set.Icc (0 : ℚ) 1) :
    b + uniform 0 (b * jitterFraction) u = b * jitterFactor u := by
  unfold uniform jitterFactor
  ring

variable {attempt : Nat} {error : RaisedError} {u : Set.Icc (0 : ℚ) 1} {hint : Option PyFloat}

theorem computeBackoff_of_hint (h : extractRetryAfter error = .ok hint) :
    computeBackoff cfg attempt error u = .ok (base cfg attempt hint * jitterFactor u) := by
  rw [computeBackoff, h, Except.map, base_add_jitter]

/-- A backoff that is computed has a header that can be read. -/
theorem computeBackoff_ok {seconds : ℚ} (h : computeBackoff cfg attempt error u = .ok seconds) :
    HeaderConverts error := by
  obtain ⟨hint, hhint, -⟩ := map_eq_ok h
  exact extractRetryAfter_ok_iff.mp ⟨hint, hhint⟩

/-- The only exception of a backoff is that of the header. -/
theorem computeBackoff_error {exc : PyExc} (h : computeBackoff cfg attempt error u = .error exc) :
    ¬ HeaderConverts error ∧ ∃ message, exc = .overflowError message := by
  constructor
  · intro hconverts
    obtain ⟨hint, hhint⟩ := extractRetryAfter_ok_iff.mpr hconverts
    rw [computeBackoff_of_hint hhint] at h
    cases h
  · cases hheader : headerHint error with
    | ok hint =>
      rw [computeBackoff, extractRetryAfter, hheader] at h
      cases h
    | error exc' =>
      rw [computeBackoff, extractRetryAfter, hheader] at h
      cases h
      exact headerHint_error hheader

/-- The jitter is a tenth of the base at most, so that the backoff is within a tenth of the
ceiling. -/
theorem computeBackoff_le {seconds : ℚ} (h : computeBackoff cfg attempt error u = .ok seconds) :
    0 ≤ seconds ∧ seconds ≤ max 0 (ceiling cfg) * (11 / 10) := by
  obtain ⟨hint, -, rfl⟩ := map_eq_ok h
  obtain ⟨hbase, hcap⟩ := capBackoff_bounds cfg (wanted cfg attempt hint)
  obtain ⟨hone, htenth⟩ := jitterFactor_bounds u
  have hfactor : 0 ≤ jitterFactor u := zero_le_one.trans hone
  rw [base_add_jitter]
  constructor
  · exact mul_nonneg hbase hfactor
  · calc base cfg attempt hint * jitterFactor u
        ≤ max 0 (ceiling cfg) * jitterFactor u := mul_le_mul_of_nonneg_right hcap hfactor
      _ ≤ max 0 (ceiling cfg) * (11 / 10) := mul_le_mul_of_nonneg_left htenth (le_max_left _ _)

theorem wanted_cases (h : extractRetryAfter error = .ok hint) :
    wanted cfg attempt hint = .inf false ∨
      ∃ seconds, wanted cfg attempt hint = .finite seconds := by
  cases hint with
  | none => exact .inr ⟨_, rfl⟩
  | some x =>
    rcases extractRetryAfter_some h with rfl | ⟨q, rfl, -⟩
    · exact .inl rfl
    · exact .inr ⟨q, rfl⟩

/-- When a factor after the caps keeps within the ceiling. -/
theorem capBackoff_mul_le_iff {x : PyFloat} {f : ℚ}
    (hx : x = .inf false ∨ ∃ seconds, x = .finite seconds) (hf : 1 ≤ f) :
    capBackoff cfg x * f ≤ ceiling cfg ↔ 0 ≤ ceiling cfg ∧
      (f = 1 ∨ ceiling cfg = 0 ∨ ∃ seconds, x = .finite seconds ∧ seconds * f ≤ ceiling cfg) := by
  rcases hx with rfl | ⟨seconds, rfl⟩
  · rw [capBackoff_inf, clamp_mul_le_of_le hf le_rfl]
    simp
  · rw [capBackoff_finite, clamp_mul_le_iff hf]
    simp

/-- What is promised of a backoff: it is within the ceiling, and without a hint its base does not
decrease with the attempts. -/
structure Bounded (cfg : DispatchConfig) (attempt : Nat) (error : RaisedError)
    (u : Set.Icc (0 : ℚ) 1) : Prop where
  within : ∃ seconds, computeBackoff cfg attempt error u = .ok seconds ∧
    0 ≤ seconds ∧ seconds ≤ ceiling cfg
  grows : extractRetryAfter error = .ok none →
    ∀ i j, i ≤ j → base cfg i none ≤ base cfg j none

/-- There is no jitter, or nothing to put it on, or it fits: the wait before the caps is a number
and with its jitter within the ceiling. -/
def JitterFits (cfg : DispatchConfig) (attempt : Nat) (error : RaisedError)
    (u : Set.Icc (0 : ℚ) 1) : Prop :=
  (u : ℚ) = 0 ∨ ceiling cfg = 0 ∨ ∀ hint, extractRetryAfter error = .ok hint →
    ∃ seconds, wanted cfg attempt hint = .finite seconds ∧
      seconds * (1 + jitterFraction * u) ≤ ceiling cfg

/-- The jitter comes after the caps: a backoff is within the ceiling exactly when its header can be
read, the ceiling is not below zero, and the jitter fits. -/
theorem backoff_ceiling_iff (cfg : DispatchConfig) (attempt : Nat) (error : RaisedError)
    (u : Set.Icc (0 : ℚ) 1) :
    Bounded cfg attempt error u ↔
      HeaderConverts error ∧ 0 ≤ ceiling cfg ∧ JitterFits cfg attempt error u := by
  have hone := (jitterFactor_bounds u).1
  have hfits : ∀ hint, extractRetryAfter error = .ok hint →
      (base cfg attempt hint * jitterFactor u ≤ ceiling cfg ↔
        0 ≤ ceiling cfg ∧ JitterFits cfg attempt error u) := by
    intro hint hhint
    rw [base, capBackoff_mul_le_iff (wanted_cases hhint) hone, jitterFactor_eq_one_iff]
    simp [JitterFits, hhint, jitterFactor]
  constructor
  · rintro ⟨⟨seconds, hseconds, -, hle⟩, -⟩
    obtain ⟨hint, hhint, -⟩ := map_eq_ok hseconds
    rw [computeBackoff_of_hint hhint] at hseconds
    cases hseconds
    exact ⟨extractRetryAfter_ok_iff.mp ⟨hint, hhint⟩, (hfits hint hhint).mp hle⟩
  · rintro ⟨hheader, hfit⟩
    obtain ⟨hint, hhint⟩ := extractRetryAfter_ok_iff.mpr hheader
    refine ⟨⟨_, computeBackoff_of_hint hhint, ?_, (hfits hint hhint).mpr hfit⟩, ?_⟩
    · exact (computeBackoff_le (computeBackoff_of_hint hhint)).1
    · exact fun _ i j hij => base_mono hij

/-! ### A hint above the ceiling -/

/-- A router with the default retries and backoffs. -/
def defaultRouter : DispatchConfig where
  fastModel := "gemini/gemini-3.8-flash"
  slowModel := "gemini/gemini-3.8-flash"
  fast_ne := by decide
  slow_ne := by decide
  budget_pos := by decide
  retries_le := by decide

/-- A rate limit that asks for a minute. -/
def minuteLimit : RaisedError where
  headers := some fun name => if name = "retry-after" then .str "60" else .null
  text := "rate limit"

/-- `random.random()` gives a half. -/
def halfway : Set.Icc (0 : ℚ) 1 := ⟨1 / 2, by norm_num⟩

theorem minute_hint : extractRetryAfter minuteLimit = .ok (some (.finite 60)) := by
  decide +kernel

/-- With half of the jitter, the sleep under a ceiling of 30 seconds takes 31.5. -/
theorem minute_over_ceiling :
    ceiling defaultRouter = 30 ∧
      computeBackoff defaultRouter 0 minuteLimit halfway = .ok (63 / 2) ∧
      ¬ Bounded defaultRouter 0 minuteLimit halfway := by
  have hceiling : ceiling defaultRouter = 30 := by norm_num [ceiling, defaultRouter]
  have hbackoff : computeBackoff defaultRouter 0 minuteLimit halfway = .ok (63 / 2) := by
    rw [computeBackoff_of_hint minute_hint]
    norm_num [base, wanted, capBackoff, defaultRouter, jitterFactor, jitterFraction, halfway]
  refine ⟨hceiling, hbackoff, ?_⟩
  rintro ⟨⟨seconds, hseconds, -, hle⟩, -⟩
  rw [hbackoff] at hseconds
  cases hseconds
  rw [hceiling] at hle
  norm_num at hle

end Backoff
end Core
end AutoSRE
