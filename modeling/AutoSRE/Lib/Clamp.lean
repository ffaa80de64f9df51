import Mathlib.Algebra.Order.Ring.Defs

/-!
# Values between zero and a cap

- **The clamp** (`clamp`). A value cut to a cap, and not below zero.
- **A factor after it** (`clamp_mul_le_iff`). When a factor of at least one, applied to what the cap
  has left, keeps within the cap.
-/

namespace AutoSRE
namespace Lib

section order

variable {K : Type*} [Zero K] [LinearOrder K] {c x y : K}

/-- `x`, at most `c` and at least zero. -/
def clamp (c x : K) : K := max 0 (min x c)

theorem clamp_nonneg (c x : K) : 0 ≤ clamp c x := le_max_left 0 _

theorem clamp_le (c x : K) : clamp c x ≤ max 0 c := max_le_max_left 0 (min_le_right x c)

theorem clamp_mono (h : x ≤ y) : clamp c x ≤ clamp c y := max_le_max_left 0 (min_le_min_right c h)

theorem clamp_of_nonpos (h : x ≤ 0) : clamp c x = 0 := max_eq_left ((min_le_left x c).trans h)

theorem clamp_eq_self (h0 : 0 ≤ x) (h : x ≤ c) : clamp c x = x := by
  rw [clamp, min_eq_left h, max_eq_right h0]

theorem clamp_of_le (h : c ≤ x) : clamp c x = max 0 c := by
  rw [clamp, min_eq_right h]

end order

section ring

variable {K : Type*} [Ring K] [LinearOrder K] [IsStrictOrderedRing K] {c x f : K}

/-- A factor after the cap cannot keep within a cap below zero. -/
theorem nonneg_of_clamp_mul_le (hf : 1 ≤ f) (h : clamp c x * f ≤ c) : 0 ≤ c :=
  (mul_nonneg (clamp_nonneg c x) (zero_le_one.trans hf)).trans h

/-- At the cap, only the factor one keeps within a cap above zero. -/
theorem clamp_mul_le_of_le (hf : 1 ≤ f) (hx : c ≤ x) :
    clamp c x * f ≤ c ↔ 0 ≤ c ∧ (f = 1 ∨ c = 0) := by
  constructor
  · intro h
    have hc := nonneg_of_clamp_mul_le hf h
    rw [clamp_of_le hx, max_eq_right hc] at h
    refine ⟨hc, ?_⟩
    by_cases hzero : c = 0
    · exact .inr hzero
    · have hpos : 0 < c := lt_of_le_of_ne hc (Ne.symm hzero)
      have hle : f ≤ 1 := by
        apply le_of_not_gt
        intro hgt
        exact absurd h (not_le.mpr (lt_mul_of_one_lt_right hpos hgt))
      exact .inl (le_antisymm hle hf)
  · rintro ⟨hc, h⟩
    rw [clamp_of_le hx, max_eq_right hc]
    rcases h with rfl | rfl
    · rw [mul_one]
    · rw [zero_mul]

/-- A factor after the cap keeps within it exactly when it is one, the cap is zero, or the value
with the factor was within the cap before. -/
theorem clamp_mul_le_iff (hf : 1 ≤ f) :
    clamp c x * f ≤ c ↔ 0 ≤ c ∧ (f = 1 ∨ c = 0 ∨ x * f ≤ c) := by
  have hf0 : 0 ≤ f := zero_le_one.trans hf
  rcases le_total c x with hx | hx
  · rw [clamp_mul_le_of_le hf hx]
    refine and_congr_right fun hc => ⟨fun h => h.imp_right .inl, ?_⟩
    rintro (h | h | h)
    · exact .inl h
    · exact .inr h
    · have hmul : clamp c x * f ≤ c := by
        rw [clamp_of_le hx, max_eq_right hc]
        exact (mul_le_mul_of_nonneg_right hx hf0).trans h
      exact ((clamp_mul_le_of_le hf hx).mp hmul).2
  · constructor
    · intro h
      have hc := nonneg_of_clamp_mul_le hf h
      refine ⟨hc, .inr (.inr ?_)⟩
      rcases le_total x 0 with h0 | h0
      · exact (mul_nonpos_of_nonpos_of_nonneg h0 hf0).trans hc
      · rwa [clamp_eq_self h0 hx] at h
    · rintro ⟨hc, h⟩
      rcases le_total x 0 with h0 | h0
      · rwa [clamp_of_nonpos h0, zero_mul]
      · rw [clamp_eq_self h0 hx]
        rcases h with rfl | rfl | h
        · rwa [mul_one]
        · rw [le_antisymm hx h0, zero_mul]
        · exact h

end ring

end Lib
end AutoSRE
