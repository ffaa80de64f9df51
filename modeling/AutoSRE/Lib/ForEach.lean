import Mathlib.Algebra.Ring.Int.Defs
import Mathlib.Data.List.Sort

/-!
# Loops that read

A loop takes the items of a list in order. It reads each of them, which may fail, and adds what it
has read to an accumulator.

* `forEach_ok_iff`: such a loop ends with the accumulator of the items as they are read (`Reads`),
  and fails if an item cannot be read.
* `Reads.insertionSort` and `Reads.take`: a part of the items, or another order of them.
* `foldl_count`: what an accumulator counts is the sum over the items.
-/

namespace AutoSRE
namespace Lib

variable {ε α β σ : Type}

/-- The loop. -/
def forEach (read : α → Except ε β) (add : σ → β → σ) : σ → List α → Except ε σ
  | s, [] => .ok s
  | s, a :: as => do
    let b ← read a
    forEach read add (add s b) as

/-- The items are read, one after the other. -/
inductive Reads (read : α → Except ε β) : List α → List β → Prop
  | nil : Reads read [] []
  | cons {a : α} {b : β} {as : List α} {bs : List β} (h : read a = .ok b) (hs : Reads read as bs) :
      Reads read (a :: as) (b :: bs)

theorem forEach_cons_ok {read : α → Except ε β} {a : α} {b : β} (h : read a = .ok b)
    (add : σ → β → σ) (s : σ) (as : List α) :
    forEach read add s (a :: as) = forEach read add (add s b) as := by
  rw [forEach, h]
  rfl

theorem forEach_cons_error {read : α → Except ε β} {a : α} {e : ε} (h : read a = .error e)
    (add : σ → β → σ) (s : σ) (as : List α) : forEach read add s (a :: as) = .error e := by
  rw [forEach, h]
  rfl

/-- A loop that ends has read all the items. -/
theorem forEach_ok_iff {read : α → Except ε β} {add : σ → β → σ} {s s' : σ} {as : List α} :
    forEach read add s as = .ok s' ↔ ∃ bs, Reads read as bs ∧ s' = bs.foldl add s := by
  constructor
  · intro h
    induction as generalizing s with
    | nil =>
      cases h
      exact ⟨[], .nil, rfl⟩
    | cons a as ih =>
      cases ha : read a with
      | error e =>
        rw [forEach_cons_error ha] at h
        cases h
      | ok b =>
        rw [forEach_cons_ok ha] at h
        obtain ⟨bs, hbs, rfl⟩ := ih h
        exact ⟨b :: bs, .cons ha hbs, rfl⟩
  · rintro ⟨bs, hbs, rfl⟩
    induction hbs generalizing s with
    | nil => rfl
    | cons h _ ih =>
      rw [forEach_cons_ok h, ih]
      rfl

namespace Reads

variable {read : α → Except ε β} {as : List α} {bs : List β}

/-- All the items can be read. -/
theorem exists_iff : (∃ bs, Reads read as bs) ↔ ∀ a ∈ as, ∃ b, read a = .ok b := by
  constructor
  · rintro ⟨bs, h⟩
    induction h with
    | nil => exact fun _ ha => absurd ha List.not_mem_nil
    | cons h _ ih => exact List.forall_mem_cons.mpr ⟨⟨_, h⟩, ih⟩
  · intro h
    induction as with
    | nil => exact ⟨[], .nil⟩
    | cons a as ih =>
      obtain ⟨⟨b, hb⟩, hrest⟩ := List.forall_mem_cons.mp h
      obtain ⟨bs, hbs⟩ := ih hrest
      exact ⟨b :: bs, .cons hb hbs⟩

/-- A fact about what is read, from a fact about the items. -/
theorem map_eq {γ : Type} (h : Reads read as bs) {f : α → γ} {g : β → γ}
    (hread : ∀ a ∈ as, ∀ b, read a = .ok b → g b = f a) : bs.map g = as.map f := by
  induction h with
  | nil => rfl
  | cons h _ ih =>
    rw [List.map_cons, List.map_cons, hread _ List.mem_cons_self _ h,
      ih fun a ha => hread a (List.mem_cons_of_mem _ ha)]

theorem exists_right (h : Reads read as bs) {a : α} (ha : a ∈ as) :
    ∃ b ∈ bs, read a = .ok b := by
  induction h with
  | nil => cases ha
  | cons h _ ih =>
    rcases List.mem_cons.mp ha with rfl | ha
    · exact ⟨_, List.mem_cons_self, h⟩
    · obtain ⟨b, hb, hread⟩ := ih ha
      exact ⟨b, List.mem_cons_of_mem _ hb, hread⟩

theorem exists_left (h : Reads read as bs) {b : β} (hb : b ∈ bs) :
    ∃ a ∈ as, read a = .ok b := by
  induction h with
  | nil => cases hb
  | cons h _ ih =>
    rcases List.mem_cons.mp hb with rfl | hb
    · exact ⟨_, List.mem_cons_self, h⟩
    · obtain ⟨a, ha, hread⟩ := ih hb
      exact ⟨a, List.mem_cons_of_mem _ ha, hread⟩

theorem take (h : Reads read as bs) (n : Nat) : Reads read (as.take n) (bs.take n) := by
  induction h generalizing n with
  | nil => simpa only [List.take_nil] using Reads.nil
  | cons h _ ih =>
    cases n with
    | zero => exact .nil
    | succ n => exact .cons h (ih n)

section Order

variable {γ : Type} (r : γ → γ → Prop) [DecidableRel r] (key : α → γ) (key' : β → γ)

theorem orderedInsert (hkey : ∀ a b, read a = .ok b → key' b = key a) {a : α} {b : β}
    (hab : read a = .ok b) (h : Reads read as bs) :
    Reads read (as.orderedInsert (fun a a' => r (key a) (key a')) a)
      (bs.orderedInsert (fun b b' => r (key' b) (key' b')) b) := by
  induction h with
  | nil => exact .cons hab .nil
  | cons h hs ih =>
    rw [List.orderedInsert_cons, List.orderedInsert_cons, hkey _ _ hab, hkey _ _ h]
    split
    · exact .cons hab (.cons h hs)
    · exact .cons h ih

/-- The items in another order are read in this order. -/
theorem insertionSort (h : Reads read as bs) (hkey : ∀ a b, read a = .ok b → key' b = key a) :
    Reads read (as.insertionSort fun a a' => r (key a) (key a'))
      (bs.insertionSort fun b b' => r (key' b) (key' b')) := by
  induction h with
  | nil => exact .nil
  | cons h _ ih =>
    rw [List.insertionSort_cons, List.insertionSort_cons]
    exact ih.orderedInsert r key key' hkey h

end Order

end Reads

/-- A loop that collects what it reads. -/
theorem foldl_collect (s bs : List β) : bs.foldl (fun l b => l ++ [b]) s = s ++ bs := by
  induction bs generalizing s with
  | nil => exact (List.append_nil s).symm
  | cons b bs ih => rw [List.foldl_cons, ih, List.append_assoc, List.singleton_append]

/-- The sum of what the items add to a count of the accumulator. -/
theorem foldl_count (count : σ → Int) {add : σ → β → σ} {amount : β → Int}
    (h : ∀ s b, count (add s b) = count s + amount b) (s : σ) (bs : List β) :
    count (bs.foldl add s) = count s + (bs.map amount).sum := by
  induction bs generalizing s with
  | nil => simp
  | cons b bs ih =>
    rw [List.foldl_cons, ih, h, List.map_cons, List.sum_cons]
    omega

end Lib
end AutoSRE
