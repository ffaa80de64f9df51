import AutoSRE.Python.Float
import Mathlib.Algebra.Order.Field.Power
import Mathlib.Algebra.Order.Field.Rat
import Mathlib.Tactic.FieldSimp
import Mathlib.Tactic.Linarith
import Mathlib.Tactic.Positivity
import Mathlib.Tactic.Ring

/-!
# The rounding of a `float`

- **The exponent** (`exponent_le`, `lt_exponent`). `exponent n d` is that of the largest power of
  two that is not above `n / d`.
- **Monotonicity** (`ofRat_mono`). A rounded value is not above that of a larger one. In one binade
  this is so for the integers that are rounded to; otherwise a power of two is between the two.
- **Values** (`FiniteFloat`). Rounding does not take a value past a `float`.
-/

namespace AutoSRE
namespace Py
namespace PyFloat

/-! ## Half to even -/

theorem roundHalfEven_mul (k : Nat) {d : Nat} (hd : 0 < d) : roundHalfEven (k * d) d = k := by
  simp [roundHalfEven, Nat.mul_div_cancel k hd, hd]

/-- A larger quotient is not rounded to a smaller integer. -/
theorem roundHalfEven_mono {n d n' d' : Nat} (hd : 0 < d) (hd' : 0 < d')
    (h : n * d' ≤ n' * d) : roundHalfEven n d ≤ roundHalfEven n' d' := by
  have hn := Nat.div_add_mod n d
  have hn' := Nat.div_add_mod n' d'
  have hr := Nat.mod_lt n hd
  have hr' := Nat.mod_lt n' hd'
  have hquotient : n / d ≤ n' / d' := by
    rw [Nat.le_div_iff_mul_le hd']
    refine Nat.le_of_mul_le_mul_right (c := d) ?_ hd
    calc n / d * d' * d = n / d * d * d' := Nat.mul_right_comm _ _ _
      _ ≤ n * d' := Nat.mul_le_mul_right d' (Nat.div_mul_le_self n d)
      _ ≤ n' * d := h
  rcases Nat.lt_or_eq_of_le hquotient with hlt | heq
  · have hle : roundHalfEven n d ≤ n / d + 1 := by
      unfold roundHalfEven
      grind
    have hge : n' / d' ≤ roundHalfEven n' d' := by
      unfold roundHalfEven
      grind
    omega
  · -- With one integer part, the remainders are in order.
    have hrem : n % d * d' ≤ n' % d' * d := by
      have hl : n * d' = n / d * (d * d') + n % d * d' := by
        rw [← Nat.mul_assoc, ← Nat.add_mul, Nat.mul_comm (n / d), hn]
      have hr : n' * d = n / d * (d * d') + n' % d' * d := by
        rw [heq, Nat.mul_comm d, ← Nat.mul_assoc, ← Nat.add_mul, Nat.mul_comm (n' / d'), hn']
      omega
    have hhalf : d ≤ 2 * (n % d) → d' ≤ 2 * (n' % d') := by
      intro hle
      refine Nat.le_of_mul_le_mul_right (c := d) ?_ hd
      have := Nat.mul_le_mul_right d' hle
      nlinarith
    have habove : d < 2 * (n % d) → d' < 2 * (n' % d') := by
      intro hlt
      refine Nat.lt_of_mul_lt_mul_right (a := d) ?_
      have := Nat.mul_lt_mul_of_pos_right hlt hd'
      nlinarith
    unfold roundHalfEven
    simp only [heq]
    grind

/-! ## The exponent -/

theorem two_zpow_pos (e : Int) : (0 : Rat) < 2 ^ e := zpow_pos (by norm_num) e

/-- The two powers that a rounding uses. -/
theorem two_zpow_mul (e : Int) : (2 : Rat) ^ e * 2 ^ (-e).toNat = 2 ^ e.toNat := by
  rw [← zpow_natCast, ← zpow_natCast, ← zpow_add₀ (by norm_num)]
  congr 1
  omega

/-- A comparison of the scaled terms of a quotient. -/
theorem two_zpow_le_iff {n d : Nat} (hd : 0 < d) (e : Int) :
    d * 2 ^ e.toNat ≤ n * 2 ^ (-e).toNat ↔ (2 : Rat) ^ e ≤ (n : Rat) / d := by
  have hd : (0 : Rat) < d := by exact_mod_cast hd
  have hp : (0 : Rat) < 2 ^ (-e).toNat := by positivity
  rw [le_div_iff₀ hd, ← mul_le_mul_iff_left₀ hp, mul_right_comm, two_zpow_mul]
  constructor
  · intro h
    rw [mul_comm]
    exact_mod_cast h
  · intro h
    rw [mul_comm] at h
    exact_mod_cast h

/-- A quotient is between the powers of its terms. -/
theorem log2_bounds {n d : Nat} (hn : 0 < n) (hd : 0 < d) :
    (2 : Rat) ^ ((Nat.log2 n : Int) - Nat.log2 d - 1) ≤ (n : Rat) / d ∧
      (n : Rat) / d < 2 ^ ((Nat.log2 n : Int) - Nat.log2 d + 1) := by
  have hn' : (0 : Rat) < n := by exact_mod_cast hn
  have hd' : (0 : Rat) < d := by exact_mod_cast hd
  have hnle : (2 : Rat) ^ (Nat.log2 n : Int) ≤ n := by
    exact_mod_cast Nat.log2_self_le hn.ne'
  have hnlt : (n : Rat) < 2 ^ ((Nat.log2 n : Int) + 1) := by
    exact_mod_cast Nat.lt_log2_self (n := n)
  have hdle : (2 : Rat) ^ (Nat.log2 d : Int) ≤ d := by
    exact_mod_cast Nat.log2_self_le hd.ne'
  have hdlt : (d : Rat) < 2 ^ ((Nat.log2 d : Int) + 1) := by
    exact_mod_cast Nat.lt_log2_self (n := d)
  constructor
  · rw [le_div_iff₀ hd']
    calc (2 : Rat) ^ ((Nat.log2 n : Int) - Nat.log2 d - 1) * d
        ≤ 2 ^ ((Nat.log2 n : Int) - Nat.log2 d - 1) * 2 ^ ((Nat.log2 d : Int) + 1) :=
          mul_le_mul_of_nonneg_left hdlt.le (two_zpow_pos _).le
      _ = 2 ^ (Nat.log2 n : Int) := by
          rw [← zpow_add₀ (by norm_num)]
          congr 1
          omega
      _ ≤ n := hnle
  · rw [div_lt_iff₀ hd']
    calc (n : Rat) < 2 ^ ((Nat.log2 n : Int) + 1) := hnlt
      _ = 2 ^ ((Nat.log2 n : Int) - Nat.log2 d + 1) * 2 ^ (Nat.log2 d : Int) := by
          rw [← zpow_add₀ (by norm_num)]
          congr 1
          omega
      _ ≤ 2 ^ ((Nat.log2 n : Int) - Nat.log2 d + 1) * d :=
          mul_le_mul_of_nonneg_left hdle (two_zpow_pos _).le

theorem exponent_le {n d : Nat} (hn : 0 < n) (hd : 0 < d) :
    (2 : Rat) ^ exponent n d ≤ (n : Rat) / d := by
  unfold exponent
  dsimp only
  split
  · next h => exact (two_zpow_le_iff hd _).mp h
  · exact (log2_bounds hn hd).1

theorem lt_exponent {n d : Nat} (hn : 0 < n) (hd : 0 < d) :
    (n : Rat) / d < 2 ^ (exponent n d + 1) := by
  unfold exponent
  dsimp only
  split
  · exact (log2_bounds hn hd).2
  · next h =>
    rw [sub_add_cancel]
    exact not_le.mp fun hle => h ((two_zpow_le_iff hd _).mpr hle)

theorem exponent_mono {n d n' d' : Nat} (hn : 0 < n) (hd : 0 < d) (hn' : 0 < n') (hd' : 0 < d')
    (h : (n : Rat) / d ≤ (n' : Rat) / d') : exponent n d ≤ exponent n' d' := by
  have hlt : (2 : Rat) ^ exponent n d < 2 ^ (exponent n' d' + 1) :=
    (exponent_le hn hd).trans_lt (h.trans_lt (lt_exponent hn' hd'))
  exact Int.lt_add_one_iff.mp ((zpow_lt_zpow_iff_right₀ (by norm_num)).mp hlt)

/-! ## Rounding a magnitude -/

/-- The exponent of the unit in the last place. -/
def unit (n d : Nat) : Int := Max.max (exponent n d - 52) (-1074)

/-- The significand that `n / d` is rounded to. -/
def significand (n d : Nat) : Nat :=
  roundHalfEven (n * 2 ^ (-unit n d).toNat) (d * 2 ^ (unit n d).toNat)

/-- The rounded value, without the overflow. -/
def rounded (n d : Nat) : Rat := significand n d * 2 ^ unit n d

theorem rounded_nonneg (n d : Nat) : 0 ≤ rounded n d :=
  mul_nonneg (Nat.cast_nonneg _) (two_zpow_pos _).le

theorem roundMagnitude_eq (n d : Nat) :
    roundMagnitude n d = if mkRat (2 ^ 1024) 1 ≤ rounded n d then none else some (rounded n d) := by
  unfold roundMagnitude
  split
  · next h =>
    subst h
    have hzero : rounded 0 d = 0 := by simp [rounded, significand, roundHalfEven]
    rw [hzero, if_neg (by decide +kernel)]
  · have hvalue : mkRat (significand n d * 2 ^ (unit n d).toNat) (2 ^ (-unit n d).toNat) =
        rounded n d := by
      rw [Rat.mkRat_eq_div, rounded]
      push_cast
      rw [← two_zpow_mul]
      field_simp
    exact congrArg (fun q => if mkRat (2 ^ 1024) 1 ≤ q then none else some q) hvalue

/-- The significand is at most an integer that is not below the scaled quotient. -/
theorem significand_le {n d k : Nat} (hd : 0 < d) (h : (n : Rat) / d ≤ k * 2 ^ unit n d) :
    significand n d ≤ k := by
  have hscaled : 0 < d * 2 ^ (unit n d).toNat := by positivity
  rw [← roundHalfEven_mul k hscaled]
  refine roundHalfEven_mono hscaled hscaled (Nat.mul_le_mul_right _ ?_)
  have hd : (0 : Rat) < d := by exact_mod_cast hd
  have hp : (0 : Rat) < 2 ^ (-unit n d).toNat := by positivity
  rw [div_le_iff₀ hd, ← mul_le_mul_iff_left₀ hp] at h
  have : (n : Rat) * 2 ^ (-unit n d).toNat ≤ k * (d * 2 ^ (unit n d).toNat) := by
    rw [← two_zpow_mul (unit n d)]
    linarith
  exact_mod_cast this

theorem le_significand {n d k : Nat} (hd : 0 < d) (h : k * 2 ^ unit n d ≤ (n : Rat) / d) :
    k ≤ significand n d := by
  have hscaled : 0 < d * 2 ^ (unit n d).toNat := by positivity
  rw [← roundHalfEven_mul k hscaled]
  refine roundHalfEven_mono hscaled hscaled (Nat.mul_le_mul_right _ ?_)
  have hd : (0 : Rat) < d := by exact_mod_cast hd
  have hp : (0 : Rat) < 2 ^ (-unit n d).toNat := by positivity
  rw [le_div_iff₀ hd, ← mul_le_mul_iff_left₀ hp] at h
  have : k * (d * 2 ^ (unit n d).toNat) ≤ (n : Rat) * 2 ^ (-unit n d).toNat := by
    rw [← two_zpow_mul (unit n d)]
    linarith
  exact_mod_cast this

/-- A larger quotient is not rounded to a smaller value. -/
theorem rounded_mono {n d n' d' : Nat} (hd : 0 < d) (hd' : 0 < d')
    (h : (n : Rat) / d ≤ (n' : Rat) / d') : rounded n d ≤ rounded n' d' := by
  rcases Nat.eq_zero_or_pos n with rfl | hn
  · have hzero : rounded 0 d = 0 := by simp [rounded, significand, roundHalfEven]
    rw [hzero]
    exact rounded_nonneg n' d'
  have hn' : 0 < n' := by
    refine Nat.pos_of_ne_zero fun hzero => ?_
    have hpos : (0 : Rat) < n / d := div_pos (by exact_mod_cast hn) (by exact_mod_cast hd)
    rw [hzero, Nat.cast_zero, zero_div] at h
    linarith
  have hexp := exponent_mono hn hd hn' hd' h
  have hunit : unit n d ≤ unit n' d' := by
    unfold unit
    omega
  rcases Int.lt_or_eq_of_le hunit with hlt | heq
  · -- The power of two of the larger quotient is a multiple of both units.
    have hunit' : unit n' d' = exponent n' d' - 52 := by
      unfold unit at hlt ⊢
      omega
    have hle : unit n d ≤ exponent n' d' := by omega
    have hbelow : exponent n d + 1 ≤ exponent n' d' := by
      unfold unit at hlt
      omega
    have hpower : ((2 ^ (exponent n' d' - unit n d).toNat : Nat) : Rat) * 2 ^ unit n d =
        2 ^ exponent n' d' := by
      push_cast
      rw [← zpow_natCast, ← zpow_add₀ (by norm_num)]
      congr 1
      omega
    have hpower' : ((2 ^ 52 : Nat) : Rat) * 2 ^ unit n' d' = 2 ^ exponent n' d' := by
      rw [hunit', Nat.cast_pow, Nat.cast_ofNat, ← zpow_natCast, ← zpow_add₀ (by norm_num)]
      congr 1
      omega
    have hup : significand n d ≤ 2 ^ (exponent n' d' - unit n d).toNat := by
      refine significand_le hd ?_
      rw [hpower]
      exact (lt_exponent hn hd).le.trans (zpow_le_zpow_right₀ (by norm_num) hbelow)
    have hdown : 2 ^ 52 ≤ significand n' d' := by
      refine le_significand hd' ?_
      rw [hpower']
      exact exponent_le hn' hd'
    calc rounded n d
        ≤ ((2 ^ (exponent n' d' - unit n d).toNat : Nat) : Rat) * 2 ^ unit n d :=
          mul_le_mul_of_nonneg_right (by exact_mod_cast hup) (two_zpow_pos _).le
      _ = ((2 ^ 52 : Nat) : Rat) * 2 ^ unit n' d' := hpower.trans hpower'.symm
      _ ≤ rounded n' d' :=
          mul_le_mul_of_nonneg_right (by exact_mod_cast hdown) (two_zpow_pos _).le
  · have hcross : n * d' ≤ n' * d := by
      have hd₀ : (0 : Rat) < d := by exact_mod_cast hd
      have hd₀' : (0 : Rat) < d' := by exact_mod_cast hd'
      exact_mod_cast (div_le_div_iff₀ hd₀ hd₀').mp h
    have hle : significand n d ≤ significand n' d' := by
      unfold significand
      rw [heq]
      refine roundHalfEven_mono (by positivity) (by positivity) ?_
      calc n * 2 ^ (-unit n' d').toNat * (d' * 2 ^ (unit n' d').toNat)
          = n * d' * (2 ^ (-unit n' d').toNat * 2 ^ (unit n' d').toNat) := by ring
        _ ≤ n' * d * (2 ^ (-unit n' d').toNat * 2 ^ (unit n' d').toNat) :=
          Nat.mul_le_mul_right _ hcross
        _ = n' * 2 ^ (-unit n' d').toNat * (d * 2 ^ (unit n' d').toNat) := by ring
    rw [rounded, rounded, heq]
    exact mul_le_mul_of_nonneg_right (by exact_mod_cast hle) (two_zpow_pos _).le

/-! ## Rounding a value -/

/-- The rounded magnitude of a value. -/
def magnitude (q : Rat) : Rat := rounded q.num.natAbs q.den

theorem magnitude_mono {p q : Rat} (h : |p| ≤ |q|) : magnitude p ≤ magnitude q := by
  refine rounded_mono p.den_pos q.den_pos ?_
  have habs (x : Rat) : ((x.num.natAbs : Nat) : Rat) / x.den = |x| := by
    conv_rhs => rw [← Rat.num_div_den x, abs_div, Nat.abs_cast, ← Int.cast_abs, ← Nat.cast_natAbs]
  rwa [habs, habs]

theorem ofRat_eq (q : Rat) : ofRat q =
    if mkRat (2 ^ 1024) 1 ≤ magnitude q then .inf (decide (q < 0))
    else .finite (if q < 0 then -magnitude q else magnitude q) := by
  rw [ofRat, roundMagnitude_eq, ← magnitude]
  simp only [Rat.num_neg]
  by_cases hover : mkRat (2 ^ 1024) 1 ≤ magnitude q
  · simp only [if_pos hover]
  · simp only [if_neg hover]

theorem ofRat_ne_nan (q : Rat) : ofRat q ≠ .nan := by
  rw [ofRat_eq]
  split <;> exact PyFloat.noConfusion

/-- A larger value is not rounded to a smaller `float`. -/
theorem ofRat_mono {p q : Rat} (h : p ≤ q) : le (ofRat p) (ofRat q) = true := by
  have hp := rounded_nonneg p.num.natAbs p.den
  have hq := rounded_nonneg q.num.natAbs q.den
  rw [← magnitude] at hp hq
  rw [ofRat_eq, ofRat_eq]
  by_cases hneg : q < 0
  · have hneg' : p < 0 := h.trans_lt hneg
    have hle : magnitude q ≤ magnitude p :=
      magnitude_mono (by rw [abs_of_neg hneg, abs_of_neg hneg']; linarith)
    simp only [hneg, hneg', decide_true, if_true]
    split <;> split <;> simp [le] <;> linarith
  · by_cases hneg' : p < 0
    · simp only [hneg, hneg', decide_true, decide_false, if_true, if_false]
      split <;> split <;> simp [le]
      linarith
    · have hle : magnitude p ≤ magnitude q := by
        refine magnitude_mono ?_
        rwa [abs_of_nonneg (not_lt.mp hneg'), abs_of_nonneg (not_lt.mp hneg)]
      simp only [hneg, hneg', decide_false, if_false]
      split <;> split <;> simp [le] <;> linarith

/-! ## Values -/

/-- A `float` has this value. -/
def IsFloat (q : Rat) : Prop := ofRat q = .finite q

instance (q : Rat) : Decidable (IsFloat q) := inferInstanceAs (Decidable (_ = _))

end PyFloat

/-- A finite `float`, by its value. -/
abbrev FiniteFloat := {q : Rat // PyFloat.IsFloat q}

namespace PyFloat

theorem lt_eq_not_le {a b : PyFloat} (ha : a ≠ .nan) (hb : b ≠ .nan) : lt a b = !le b a := by
  cases a with
  | nan => exact absurd rfl ha
  | inf a =>
    cases b with
    | nan => exact absurd rfl hb
    | inf b => cases a <;> cases b <;> rfl
    | finite q => cases a <;> rfl
  | finite p =>
    cases b with
    | nan => exact absurd rfl hb
    | inf b => cases b <;> rfl
    | finite q => simp [lt, le, ← not_le]

theorem le_trans {a b c : PyFloat} (h : le a b = true) (h' : le b c = true) : le a c = true := by
  rcases a with _ | (_ | _) | p <;> rcases b with _ | (_ | _) | q <;>
    rcases c with _ | (_ | _) | r <;> grind [le]

/-- Rounding does not take a value above a `float`. -/
theorem ofRat_le {c : Rat} {t : FiniteFloat} (h : c ≤ t) : le (ofRat c) (.finite t) = true := by
  have := ofRat_mono h
  rwa [t.2] at this

/-- Rounding does not take a value below a `float`. -/
theorem le_ofRat {c : Rat} {t : FiniteFloat} (h : t ≤ c) : le (.finite t) (ofRat c) = true := by
  have := ofRat_mono h
  rwa [t.2] at this

end PyFloat

theorem isFloat_zero : PyFloat.IsFloat 0 := by decide +kernel

theorem isFloat_thirty : PyFloat.IsFloat 30 := by decide +kernel

theorem isFloat_sixty : PyFloat.IsFloat 60 := by decide +kernel

/-- The `float` of `0.1`. -/
def tenth : FiniteFloat := ⟨mkRat 3602879701896397 36028797018963968, by decide +kernel⟩

/-- The `float` of `1.1`. -/
def elevenTenths : FiniteFloat := ⟨mkRat 2476979795053773 2251799813685248, by decide +kernel⟩

/-- `1.1 - 0.1` is rounded down. -/
example : (1 : Rat) < elevenTenths - tenth ∧ PyFloat.ofRat (elevenTenths - tenth) = .finite 1 := by
  decide +kernel

end Py
end AutoSRE
