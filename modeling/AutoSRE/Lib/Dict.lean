import Mathlib.Algebra.BigOperators.Group.List.Basic
import Mathlib.Algebra.Ring.Int.Defs
import Mathlib.Data.List.Nodup

/-!
# Dictionaries

A dictionary keeps the order in which its keys were first set. A key occurs once.

* `Dict.get?`, `Dict.set` and `Dict.erase`, with `mem_entries` between the entries and the lookup.
* `get?_set` and `get?_erase`: another key is unchanged.
* `sum_set`: setting a key replaces its part of a sum over the entries (`sum_keys`).
-/

namespace AutoSRE
namespace Lib

/-- The entries in order. -/
structure Dict (κ α : Type) where
  entries : List (κ × α)
  nodup : (entries.map Prod.fst).Nodup

namespace Dict

variable {κ α : Type} [DecidableEq κ]

omit [DecidableEq κ] in
/-- The empty dictionary. -/
def empty : Dict κ α := ⟨[], .nil⟩

/-- The value of a key. -/
def get? (d : Dict κ α) (k : κ) : Option α := (d.entries.find? fun p => p.1 = k).map (·.2)

theorem keys_map (k : κ) (a : α) (entries : List (κ × α)) :
    (entries.map fun p => if p.1 = k then (k, a) else p).map Prod.fst = entries.map Prod.fst := by
  rw [List.map_map]
  refine List.map_congr_left fun p _ => ?_
  by_cases h : p.1 = k
  · simp [h]
  · simp [h]

/-- A key that is there keeps its place; another one comes last. -/
def set (d : Dict κ α) (k : κ) (a : α) : Dict κ α :=
  if h : k ∈ d.entries.map Prod.fst then
    ⟨d.entries.map fun p => if p.1 = k then (k, a) else p, by rw [keys_map]; exact d.nodup⟩
  else
    ⟨d.entries ++ [(k, a)], by
      rw [List.map_append, List.nodup_append]
      refine ⟨d.nodup, List.nodup_singleton _, fun x hx y hy => ?_⟩
      cases List.mem_singleton.mp hy
      intro hxy
      rw [hxy] at hx
      exact h hx⟩

/-- A key is deleted. -/
def erase (d : Dict κ α) (k : κ) : Dict κ α :=
  ⟨d.entries.filter fun p => p.1 ≠ k, d.nodup.sublist (List.filter_sublist.map _)⟩

theorem mem_entries {d : Dict κ α} {k : κ} {a : α} : (k, a) ∈ d.entries ↔ d.get? k = some a := by
  obtain ⟨entries, hnodup⟩ := d
  simp only [get?]
  induction entries with
  | nil => simp
  | cons p entries ih =>
    obtain ⟨k', a'⟩ := p
    obtain ⟨hnot, hnodup⟩ := List.nodup_cons.mp hnodup
    by_cases h : k' = k
    · subst h
      have hne : (k', a) ∉ entries := fun hmem => hnot (List.mem_map.mpr ⟨_, hmem, rfl⟩)
      simp [hne, eq_comm]
    · rw [List.mem_cons, List.find?_cons_of_neg (by simpa using h), ← ih hnodup]
      simp [Ne.symm h]

@[simp] theorem get?_empty (k : κ) : (empty : Dict κ α).get? k = none := rfl

theorem mem_set {d : Dict κ α} {k k' : κ} {a a' : α} :
    (k', a') ∈ (d.set k a).entries ↔ if k' = k then a' = a else (k', a') ∈ d.entries := by
  unfold set
  split
  · next h =>
    obtain ⟨⟨k₀, a₀⟩, hin, rfl⟩ := List.mem_map.mp h
    simp only [List.mem_map]
    constructor
    · rintro ⟨⟨k₁, a₁⟩, hin₁, heq⟩
      by_cases h₁ : k₁ = k₀
      · rw [if_pos h₁] at heq
        cases heq
        rw [if_pos rfl]
      · rw [if_neg h₁] at heq
        cases heq
        rwa [if_neg h₁]
    · intro h'
      by_cases hk : k' = k₀
      · rw [if_pos hk] at h'
        exact ⟨(k₀, a₀), hin, by rw [if_pos rfl, hk, h']⟩
      · rw [if_neg hk] at h'
        exact ⟨(k', a'), h', if_neg hk⟩
  · next h =>
    simp only [List.mem_append, List.mem_singleton, Prod.mk.injEq]
    by_cases hk : k' = k
    · have hne : (k', a') ∉ d.entries := fun hmem => h (hk ▸ List.mem_map.mpr ⟨_, hmem, rfl⟩)
      simp [hk, hk ▸ hne]
    · simp [hk]

theorem get?_set (d : Dict κ α) (k k' : κ) (a : α) :
    (d.set k a).get? k' = if k' = k then some a else d.get? k' := by
  ext a'
  rw [← mem_entries, mem_set]
  split
  · rw [Option.some.injEq, eq_comm]
  · exact mem_entries

omit [DecidableEq κ] in
/-- The sum of an amount over the entries. -/
def sum (amount : α → Int) (d : Dict κ α) : Int := (d.entries.map fun p => amount p.2).sum

theorem sum_replace (amount : α → Int) (k : κ) (a : α) {entries : List (κ × α)}
    (hnodup : (entries.map Prod.fst).Nodup) {b : α} (hb : (k, b) ∈ entries) :
    ((entries.map fun p => if p.1 = k then (k, a) else p).map fun p => amount p.2).sum + amount b =
      (entries.map fun p => amount p.2).sum + amount a := by
  induction entries with
  | nil => cases hb
  | cons p entries ih =>
    obtain ⟨hnot, hnodup⟩ := List.nodup_cons.mp hnodup
    rw [List.map_cons, List.map_cons, List.sum_cons, List.map_cons, List.sum_cons]
    rcases List.mem_cons.mp hb with rfl | hb
    · -- The key is not among the rest.
      have hrest : (entries.map fun p => if p.1 = k then (k, a) else p) = entries := by
        refine (List.map_congr_left fun p hp => ?_).trans (List.map_id entries)
        have hne : p.1 ≠ k := fun h => hnot (h ▸ List.mem_map.mpr ⟨p, hp, rfl⟩)
        exact if_neg hne
      rw [hrest, if_pos rfl]
      show amount a + _ + amount b = amount b + _ + amount a
      omega
    · have hne : p.1 ≠ k := fun h => hnot (h ▸ List.mem_map.mpr ⟨_, hb, rfl⟩)
      have := ih hnodup hb
      rw [if_neg hne]
      omega

/-- Setting a key replaces its amount. -/
theorem sum_set (amount : α → Int) (d : Dict κ α) (k : κ) (a : α) :
    (d.set k a).sum amount + ((d.get? k).map amount).getD 0 = d.sum amount + amount a := by
  unfold set
  split
  · next h =>
    obtain ⟨⟨k', b⟩, hb, rfl⟩ := List.mem_map.mp h
    rw [mem_entries.mp hb]
    exact sum_replace amount k' a d.nodup hb
  · next h =>
    have hnone : d.get? k = none := by
      refine Option.eq_none_iff_forall_ne_some.mpr fun b hb => h ?_
      exact List.mem_map.mpr ⟨_, mem_entries.mpr hb, rfl⟩
    rw [hnone]
    simp [sum]

/-- The sum over the keys, in any order. -/
theorem sum_keys (amount : α → Int) (d : Dict κ α) (default : α) {keys : List κ}
    (h : keys.Perm (d.entries.map Prod.fst)) :
    (keys.map fun k => amount ((d.get? k).getD default)).sum = d.sum amount := by
  rw [List.Perm.sum_eq (h.map _), List.map_map]
  refine congrArg List.sum (List.map_congr_left fun p hp => ?_)
  have hget : d.get? p.1 = some p.2 := mem_entries.mp hp
  simp only [Function.comp_apply, hget, Option.getD_some]

theorem mem_keys {d : Dict κ α} {k : κ} :
    k ∈ d.entries.map Prod.fst ↔ ∃ a, d.get? k = some a := by
  rw [List.mem_map]
  constructor
  · rintro ⟨⟨k, a⟩, hmem, rfl⟩
    exact ⟨a, mem_entries.mp hmem⟩
  · rintro ⟨a, h⟩
    exact ⟨(k, a), mem_entries.mpr h, rfl⟩

theorem get?_erase (d : Dict κ α) (k k' : κ) :
    (d.erase k).get? k' = if k' = k then none else d.get? k' := by
  ext a
  rw [← mem_entries, erase, List.mem_filter]
  split
  · next h => simp [h]
  · next h => simp [h, mem_entries]

end Dict
end Lib
end AutoSRE
