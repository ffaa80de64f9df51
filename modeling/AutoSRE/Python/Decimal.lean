import AutoSRE.Python.Value
import Mathlib.Data.Int.Log
import Mathlib.Data.Rat.Floor

/-!
# Python's `decimal.Decimal`

A finite `Decimal` by its value, and the operations of the default context on it.

- **Rounding** (`roundContext`). The exact result is rounded to 28 significant digits, half to
  even, and not below the smallest exponent. A result above the largest exponent is an `Overflow`,
  which is trapped; an underflow is not.
- **The constructor** (`decimalOf`). It is exact: it rejects a literal outside the limits of the
  library.
- **To an integer** (`decimalToInt`). Half away from zero, as `ROUND_HALF_UP` says.
-/

namespace AutoSRE
namespace Py

/-! ## The default context -/

/-- `Emax` of the default context. -/
def contextEmax : Nat := 999999

/-- Above every number of the default context. -/
def contextLimit : ℚ := 10 ^ (contextEmax + 1)

/-- The exponent of the smallest subnormal number: `Emin - (prec - 1)`. -/
def contextEtiny : Int := -1000026

/-- The nearest integer, half to even. -/
def halfEven (x : ℚ) : Int :=
  if x - ⌊x⌋ < 1 / 2 then ⌊x⌋
  else if 1 / 2 < x - ⌊x⌋ then ⌊x⌋ + 1
  else if ⌊x⌋ % 2 = 0 then ⌊x⌋ else ⌊x⌋ + 1

/-- The exponent of the last of 28 significant digits. -/
def lastExponent (x : ℚ) : Int := max (Int.log 10 |x| - 27) contextEtiny

/-- The value of 28 significant digits. -/
def roundContext (x : ℚ) : ℚ := halfEven (x / 10 ^ lastExponent x) * 10 ^ lastExponent x

/-- The result of an operation whose exact result is `x`. -/
def decimalResult (x : ℚ) : Except PyExc ℚ :=
  if contextLimit ≤ |roundContext x| then
    .error (.exception "Overflow" "[<class 'decimal.Overflow'>]")
  else .ok (roundContext x)

/-- `a * b`. -/
def decimalMul (a b : ℚ) : Except PyExc ℚ := decimalResult (a * b)

/-- `a / b`. -/
def decimalDiv (a b : ℚ) : Except PyExc ℚ := decimalResult (a / b)

/-! ## The constructor -/

/-- The largest exponent of the library. -/
def maxEmax : Int := 999999999999999999

/-- The smallest exponent of the library. -/
def minEtiny : Int := -1999999999999999997

/-- The value of a literal with the coefficient `c` and the exponent `e`; `none` is an
`InvalidOperation`. -/
def decimalOf (negative : Bool) (c : Nat) (e : Int) : Option ℚ :=
  if minEtiny ≤ e ∧ e + Nat.log 10 c ≤ maxEmax then
    some ((if negative then -1 else 1) * (c * 10 ^ e))
  else none

/-! ## To an integer -/

/-- `int(value.to_integral_value(rounding=ROUND_HALF_UP))`. -/
def decimalToInt (x : ℚ) : Int := if x < 0 then -⌊-x + 1 / 2⌋ else ⌊x + 1 / 2⌋

/-! ## Rounding -/

theorem halfEven_intCast (n : Int) : halfEven n = n := by
  simp [halfEven]

theorem halfEven_le (x : ℚ) : halfEven x ≤ x + 1 / 2 := by
  have h := Int.floor_le x
  unfold halfEven
  split
  · linarith
  · split
    · push_cast
      linarith
    · split
      · linarith
      · push_cast
        linarith

theorem le_halfEven (x : ℚ) : x - 1 / 2 ≤ halfEven x := by
  have h := Int.lt_floor_add_one x
  unfold halfEven
  split
  · linarith
  · split
    · push_cast
      linarith
    · split
      · linarith
      · push_cast
        linarith

theorem halfEven_nonneg {x : ℚ} (h : 0 ≤ x) : 0 ≤ halfEven x := by
  have hf : 0 ≤ ⌊x⌋ := Int.floor_nonneg.mpr h
  unfold halfEven
  split
  · exact hf
  · split
    · omega
    · split <;> omega

theorem ten_zpow_pos (e : Int) : (0 : ℚ) < 10 ^ e := zpow_pos (by norm_num) e

theorem roundContext_nonneg {x : ℚ} (h : 0 ≤ x) : 0 ≤ roundContext x := by
  have hp := ten_zpow_pos (lastExponent x)
  have hq : 0 ≤ halfEven (x / 10 ^ lastExponent x) := halfEven_nonneg (div_nonneg h hp.le)
  exact mul_nonneg (by exact_mod_cast hq) hp.le

/-- A value with at most 28 digits is not rounded. -/
theorem roundContext_exact {c : Nat} {e : Int} (hc : c < 10 ^ 28) (he : contextEtiny ≤ e) :
    roundContext (c * 10 ^ e) = c * 10 ^ e := by
  rcases Nat.eq_zero_or_pos c with rfl | hpos
  · simp [roundContext, halfEven]
  · have hxpos : 0 < (c * 10 ^ e : ℚ) := mul_pos (by exact_mod_cast hpos) (ten_zpow_pos e)
    have hlt : (c * 10 ^ e : ℚ) < ((10 : ℕ) : ℚ) ^ (e + 28) := by
      have h28 : (c : ℚ) < 10 ^ 28 := by exact_mod_cast hc
      rw [zpow_add₀ (by norm_num), mul_comm]
      exact mul_lt_mul_of_pos_left h28 (ten_zpow_pos e)
    have hlog : Int.log 10 |(c * 10 ^ e : ℚ)| < e + 28 := by
      rw [abs_of_pos hxpos]
      exact (Int.lt_zpow_iff_log_lt (by norm_num) hxpos).mp hlt
    have hle : lastExponent (c * 10 ^ e) ≤ e := max_le (by omega) he
    -- So the quotient is an integer.
    rw [roundContext]
    generalize lastExponent (c * 10 ^ e) = l at hle ⊢
    obtain ⟨k, rfl⟩ : ∃ k : Nat, e = l + k := ⟨(e - l).toNat, by omega⟩
    have hp := (ten_zpow_pos l).ne'
    have hdiv : (c * 10 ^ (l + k : Int) : ℚ) / 10 ^ l = ((c * 10 ^ k : Int) : ℚ) := by
      rw [div_eq_iff hp, zpow_add₀ (by norm_num), zpow_natCast]
      push_cast
      ring
    rw [hdiv, halfEven_intCast, ← hdiv, div_mul_cancel₀ _ hp]

/-- The unit of the last of 28 digits is small against the value, or against 1. -/
theorem lastUnit_le {x : ℚ} (h : 0 ≤ x) : (10 : ℚ) ^ lastExponent x ≤ max x 1 := by
  rcases le_total (lastExponent x) 0 with hl | hl
  · refine le_max_of_le_right ?_
    simpa using zpow_le_zpow_right₀ (by norm_num : (1 : ℚ) ≤ 10) hl
  · refine le_max_of_le_left ?_
    have hle : lastExponent x ≤ Int.log 10 |x| := by
      have hE : contextEtiny < 0 := by decide
      rcases max_choice (Int.log 10 |x| - 27) contextEtiny with he | he
      · rw [lastExponent, he]
        omega
      · rw [lastExponent, he] at hl
        omega
    have hpos : 0 < x := by
      rcases h.eq_or_lt with rfl | hpos
      · simp [lastExponent, contextEtiny] at hl
      · exact hpos
    calc (10 : ℚ) ^ lastExponent x
        ≤ 10 ^ Int.log 10 |x| := zpow_le_zpow_right₀ (by norm_num) hle
      _ ≤ x := by
        have := Int.zpow_log_le_self (b := 10) (by norm_num) (abs_pos.mpr hpos.ne')
        rw [abs_of_pos hpos] at this ⊢
        exact_mod_cast this

/-- Rounding moves a value by half a unit of its last digit at most. -/
theorem roundContext_bounds (x : ℚ) : x - 10 ^ lastExponent x / 2 ≤ roundContext x ∧
    roundContext x ≤ x + 10 ^ lastExponent x / 2 := by
  have hp := ten_zpow_pos (lastExponent x)
  have hx : x = x / 10 ^ lastExponent x * 10 ^ lastExponent x := (div_mul_cancel₀ _ hp.ne').symm
  constructor
  · have h := mul_le_mul_of_nonneg_right (le_halfEven (x / 10 ^ lastExponent x)) hp.le
    rw [sub_mul, ← hx] at h
    rw [roundContext]
    linarith
  · have h := mul_le_mul_of_nonneg_right (halfEven_le (x / 10 ^ lastExponent x)) hp.le
    rw [add_mul, ← hx] at h
    rw [roundContext]
    linarith

/-- A small value stays small. -/
theorem roundContext_lt_half {x : ℚ} (h0 : 0 ≤ x) (h : x < 1 / 10) : roundContext x < 1 / 2 := by
  have hlast : lastExponent x ≤ -1 := by
    refine max_le ?_ (by decide)
    rcases h0.eq_or_lt with rfl | hpos
    · simp
    · have hlog : Int.log 10 |x| < 0 := by
        rw [abs_of_pos hpos]
        refine (Int.lt_zpow_iff_log_lt (by norm_num) hpos).mp ?_
        norm_num
        linarith
      omega
  have hunit : (10 : ℚ) ^ lastExponent x ≤ 10 ^ (-1 : Int) :=
    zpow_le_zpow_right₀ (by norm_num) hlast
  have hround := (roundContext_bounds x).2
  norm_num at hunit
  linarith

theorem contextLimit_ge : 1000000000000 ≤ contextLimit := by
  have h : (10 : ℚ) ^ 12 ≤ contextLimit := pow_le_pow_right₀ (by norm_num) (by decide)
  norm_num at h
  exact h

theorem decimalResult_of_lt {x : ℚ} (h0 : 0 ≤ x) (h : roundContext x < contextLimit) :
    decimalResult x = .ok (roundContext x) :=
  if_neg (by rw [abs_of_nonneg (roundContext_nonneg h0)]; exact not_le.mpr h)

theorem decimalResult_of_le {x : ℚ} (h0 : 0 ≤ x) (h : contextLimit ≤ roundContext x) :
    decimalResult x = .error (.exception "Overflow" "[<class 'decimal.Overflow'>]") :=
  if_pos (by rwa [abs_of_nonneg (roundContext_nonneg h0)])

theorem decimalToInt_of_nonneg {x : ℚ} (h : 0 ≤ x) : decimalToInt x = ⌊x + 1 / 2⌋ :=
  if_neg (not_lt.mpr h)

/-- Two values have the same integer exactly when no half lies between them. -/
theorem decimalToInt_eq_iff {x y : ℚ} (hx : 0 ≤ x) (hy : 0 ≤ y) :
    decimalToInt x = decimalToInt y ↔ ∀ k : Int, (k + 1 / 2 ≤ x ↔ k + 1 / 2 ≤ y) := by
  have key : ∀ (z : ℚ) (k : Int), (k + 1 / 2 ≤ z ↔ k + 1 ≤ ⌊z + 1 / 2⌋) := by
    intro z k
    rw [Int.le_floor]
    push_cast
    constructor <;> intro h <;> linarith
  rw [decimalToInt_of_nonneg hx, decimalToInt_of_nonneg hy]
  constructor
  · intro h k
    rw [key, key, h]
  · intro h
    have h₁ := (h (⌊x + 1 / 2⌋ - 1)).mp ((key _ _).mpr (by omega))
    have h₂ := (h (⌊y + 1 / 2⌋ - 1)).mpr ((key _ _).mpr (by omega))
    rw [key] at h₁ h₂
    omega

/-- The integer of a value is 0 exactly when the value is below a half. -/
theorem decimalToInt_eq_zero_iff {x : ℚ} (hx : 0 ≤ x) : decimalToInt x = 0 ↔ x < 1 / 2 := by
  rw [decimalToInt_of_nonneg hx, Int.floor_eq_zero_iff, Set.mem_Ico]
  constructor
  · rintro ⟨-, h⟩
    linarith
  · intro h
    constructor <;> linarith

end Py
end AutoSRE
