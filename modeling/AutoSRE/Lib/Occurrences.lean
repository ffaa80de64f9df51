import Mathlib.Data.List.Infix

/-!
# Occurrences of a list in another

* `occurrences pattern text`: the number of places at which `pattern` stands in `text`.
* `occurrences_cons_right`, `occurrences_concat_left`: no occurrence goes across a boundary whose
  first element is only the first of the pattern, or whose last element is only its last.
-/

namespace AutoSRE
namespace Lib

variable {α : Type} [DecidableEq α]

/-- The number of places at which `pattern` stands in `text`. -/
def occurrences (pattern : List α) : List α → Nat
  | [] => 0
  | a :: text => (if pattern.isPrefixOf (a :: text) then 1 else 0) + occurrences pattern text

theorem occurrences_eq_zero {p : α} {pattern text : List α} (h : p ∉ text) :
    occurrences (p :: pattern) text = 0 := by
  induction text with
  | nil => rfl
  | cons a text ih =>
    obtain ⟨ha, htext⟩ := not_or.mp (mt List.mem_cons.mpr h)
    have hfirst : (p == a) = false := by simpa using ha
    simp [occurrences, List.isPrefixOf, hfirst, ih htext]

omit [DecidableEq α] in
/-- A list without `c` that goes on to a `c` ends before it. -/
theorem prefix_of_prefix_append {c : α} {l a b : List α} (hc : c ∉ l) (h : l <+: a ++ c :: b) :
    l <+: a := by
  rcases Nat.le_total l.length a.length with hle | hle
  · exact List.prefix_of_prefix_length_le h (List.prefix_append a _) hle
  · have ha : a <+: l := List.prefix_of_prefix_length_le (List.prefix_append a _) h hle
    obtain ⟨t, rfl⟩ := ha
    cases t with
    | nil => simp
    | cons d t =>
      obtain ⟨rfl, -⟩ := List.cons_prefix_cons.mp ((List.prefix_append_right_inj a).mp h)
      exact absurd (List.mem_append_right a List.mem_cons_self) hc

omit [DecidableEq α] in
/-- A list with `c` at most at its end, and that goes on to a `c`, ends with it or before it. -/
theorem prefix_concat_of_append {c : α} {l a b : List α} (hc : c ∉ l.dropLast)
    (h : l <+: a ++ c :: b) : l <+: a ++ [c] := by
  rcases List.eq_nil_or_concat l with rfl | ⟨l, d, rfl⟩
  · exact List.nil_prefix
  rw [List.concat_eq_append] at *
  rw [List.dropLast_concat] at hc
  have hl : l <+: a := prefix_of_prefix_append hc ((List.prefix_append l [d]).trans h)
  obtain ⟨t, rfl⟩ := hl
  rw [List.append_assoc] at h ⊢
  have h := (List.prefix_append_right_inj l).mp h
  refine (List.prefix_append_right_inj l).mpr ?_
  cases t with
  | nil => simpa using h
  | cons e t => simpa using h

theorem occurrences_cons_right {c : α} {pattern : List α} (h : c ∉ pattern.tail) (a b : List α) :
    occurrences pattern (a ++ c :: b) =
      occurrences pattern a + occurrences pattern (c :: b) := by
  induction a with
  | nil => simp [occurrences]
  | cons x a ih =>
    have hiff : pattern.isPrefixOf (x :: (a ++ c :: b)) = pattern.isPrefixOf (x :: a) := by
      rw [Bool.eq_iff_iff, List.isPrefixOf_iff_prefix, List.isPrefixOf_iff_prefix]
      cases pattern with
      | nil => simp
      | cons p pattern =>
        rw [List.cons_prefix_cons, List.cons_prefix_cons]
        exact and_congr_right fun _ =>
          ⟨prefix_of_prefix_append h, fun hl => hl.trans (List.prefix_append a _)⟩
    rw [List.cons_append, occurrences, occurrences, ih, hiff]
    omega

theorem occurrences_concat_left {c : α} {pattern : List α} (h : c ∉ pattern.dropLast)
    (a b : List α) :
    occurrences pattern (a ++ c :: b) =
      occurrences pattern (a ++ [c]) + occurrences pattern b := by
  have hiff (a : List α) :
      pattern.isPrefixOf (a ++ c :: b) = pattern.isPrefixOf (a ++ [c]) := by
    rw [Bool.eq_iff_iff, List.isPrefixOf_iff_prefix, List.isPrefixOf_iff_prefix]
    refine ⟨prefix_concat_of_append h, fun hl => hl.trans ?_⟩
    rw [List.append_cons a c b]
    exact List.prefix_append _ b
  induction a with
  | nil =>
    have hnil : pattern.isPrefixOf (c :: b) = pattern.isPrefixOf [c] := hiff []
    simp [occurrences, hnil]
  | cons x a ih =>
    have hcons : pattern.isPrefixOf (x :: (a ++ c :: b)) =
        pattern.isPrefixOf (x :: (a ++ [c])) := hiff (x :: a)
    rw [List.cons_append, List.cons_append, occurrences, occurrences, ih, hcons]
    omega

end Lib
end AutoSRE
