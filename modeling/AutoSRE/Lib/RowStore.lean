/-!
# Rows under write locks

A table of rows that transactions write. What a transaction writes stays its own until it commits,
and it locks the row until then (`Slot`).

* `Table.write`: a guarded write. The guard sees the committed row, or the transaction's own write;
  a row that another transaction has written blocks it, and the guard is evaluated again later.
* `Table.commit` and `Table.abort` end a transaction.
* `Table.Holds` and `Table.Idle`: the transaction has written a row, or none. Another transaction
  does not change this (`Holds.write`, `Idle.write`, …).
* `Table.Consistent`: every uncommitted write relates to the row that is committed below it. The
  lock keeps this relation until the commit, so no update is lost.
-/

namespace AutoSRE
namespace Lib

/-- A row, and the uncommitted write of the transaction that locks it. -/
structure Slot (τ α : Type) where
  committed : α
  writer : Option (τ × α) := none

/-- The rows of a table by their keys. -/
def Table (κ τ α : Type) : Type := κ → Slot τ α

/-- The end of a guarded write. -/
inductive WriteResult (σ : Type) where
  | written (s : σ)
  /-- The guard fails. -/
  | unmatched
  /-- Another transaction has the lock. -/
  | blocked

namespace Table

variable {κ τ α : Type} [DecidableEq κ] [DecidableEq τ]

/-- Rows without a writer. -/
def ofRows (rows : κ → α) : Table κ τ α := fun k => { committed := rows k }

/-- Replace a row. -/
def set (s : Table κ τ α) (k : κ) (r : Slot τ α) : Table κ τ α :=
  fun k' => if k' = k then r else s k'

omit [DecidableEq τ] in
@[simp] theorem set_self (s : Table κ τ α) (k : κ) (r : Slot τ α) : s.set k r k = r := by
  simp [set]

omit [DecidableEq τ] in
theorem set_ne (s : Table κ τ α) {k k' : κ} (h : k' ≠ k) (r : Slot τ α) : s.set k r k' = s k' := by
  simp [set, h]

/-- The transaction `t` writes the row `k`; the guard gives the new row, or fails. -/
def write (s : Table κ τ α) (t : τ) (k : κ) (guard : α → Option α) :
    WriteResult (Table κ τ α) :=
  match (s k).writer with
  | none =>
    match guard (s k).committed with
    | some v => .written (s.set k { committed := (s k).committed, writer := some (t, v) })
    | none => .unmatched
  | some (t', v') =>
    if t' = t then
      match guard v' with
      | some v => .written (s.set k { committed := (s k).committed, writer := some (t, v) })
      | none => .unmatched
    else
      match guard (s k).committed with
      | some _ => .blocked
      | none => .unmatched

/-- The transaction `t` commits. -/
def commit (s : Table κ τ α) (t : τ) : Table κ τ α := fun k =>
  match (s k).writer with
  | some (t', v) => if t' = t then { committed := v } else s k
  | none => s k

/-- The transaction `t` is rolled back. -/
def abort (s : Table κ τ α) (t : τ) : Table κ τ α := fun k =>
  match (s k).writer with
  | some (t', _) => if t' = t then { committed := (s k).committed } else s k
  | none => s k

/-- The transaction `t` has written the row `k`. -/
def Holds (s : Table κ τ α) (t : τ) (k : κ) : Prop := ∃ v, (s k).writer = some (t, v)

/-- The transaction `t` has written no row. -/
def Idle (s : Table κ τ α) (t : τ) : Prop := ∀ k v, (s k).writer ≠ some (t, v)

/-- The transaction has written the same rows in `s` and in `s'`. -/
structure Keeps (s s' : Table κ τ α) (t : τ) : Prop where
  holds : ∀ k, s.Holds t k → s'.Holds t k
  idle : s.Idle t → s'.Idle t

/-- Every uncommitted write relates to the row that is committed below it. -/
def Consistent (R : κ → τ → α → α → Prop) (s : Table κ τ α) : Prop :=
  ∀ k t v, (s k).writer = some (t, v) → R k t (s k).committed v

variable {s s' : Table κ τ α} {t t' : τ} {k : κ} {guard : α → Option α} {R : κ → τ → α → α → Prop}

omit [DecidableEq κ] [DecidableEq τ] in
theorem idle_ofRows (rows : κ → α) (t : τ) : (ofRows rows : Table κ τ α).Idle t := by
  intro k v h
  cases h

omit [DecidableEq κ] [DecidableEq τ] in
theorem consistent_ofRows (rows : κ → α) : (ofRows rows : Table κ τ α).Consistent R := by
  intro k t v h
  cases h

/-! ## Writes -/

/-- A write by a transaction without writes sees the committed row. -/
theorem write_written (h : s.write t k guard = .written s') (hi : s.Idle t) :
    ∃ v, guard (s k).committed = some v ∧ (s k).writer = none ∧
      s' = s.set k { committed := (s k).committed, writer := some (t, v) } := by
  unfold write at h
  cases hw : (s k).writer with
  | none =>
    simp only [hw] at h
    split at h
    · rename_i v hv
      cases h
      exact ⟨v, hv, rfl, rfl⟩
    · cases h
  | some p =>
    obtain ⟨t₁, v₁⟩ := p
    simp only [hw] at h
    split at h
    · rename_i ht
      exact absurd (ht ▸ hw) (hi k v₁)
    · split at h <;> cases h

/-- A write by a transaction without writes fails only when its guard fails on the committed row. -/
theorem write_unmatched (h : s.write t k guard = .unmatched) (hi : s.Idle t) :
    guard (s k).committed = none := by
  unfold write at h
  cases hw : (s k).writer with
  | none =>
    simp only [hw] at h
    split at h
    · cases h
    · rename_i hv
      exact hv
  | some p =>
    obtain ⟨t₁, v₁⟩ := p
    simp only [hw] at h
    split at h
    · rename_i ht
      exact absurd (ht ▸ hw) (hi k v₁)
    · split at h
      · cases h
      · rename_i hv
        exact hv

theorem committed_write (h : s.write t k guard = .written s') (hi : s.Idle t) (k' : κ) :
    (s' k').committed = (s k').committed := by
  obtain ⟨v, -, -, rfl⟩ := write_written h hi
  by_cases hk : k' = k
  · subst hk
    rw [set_self]
  · rw [set_ne _ hk]

theorem holds_write (h : s.write t k guard = .written s') (hi : s.Idle t) : s'.Holds t k := by
  obtain ⟨v, -, -, rfl⟩ := write_written h hi
  exact ⟨v, by rw [set_self]⟩

/-- A row that a transaction has written is not written by another one. -/
theorem Holds.write {k' : κ} (hh : s.Holds t' k') (h : s.write t k guard = .written s')
    (hi : s.Idle t) : s'.Holds t' k' := by
  obtain ⟨v', hv'⟩ := hh
  obtain ⟨v, -, hfree, rfl⟩ := write_written h hi
  have hk : k' ≠ k := by
    rintro rfl
    rw [hfree] at hv'
    cases hv'
  exact ⟨v', by rw [set_ne _ hk, hv']⟩

theorem Idle.write (hidle : s.Idle t') (h : s.write t k guard = .written s') (hi : s.Idle t)
    (ht : t' ≠ t) : s'.Idle t' := by
  obtain ⟨v, -, -, rfl⟩ := write_written h hi
  intro k' v' hw
  by_cases hk : k' = k
  · subst hk
    rw [set_self] at hw
    cases hw
    exact ht rfl
  · rw [set_ne _ hk] at hw
    exact hidle k' v' hw

theorem keeps_write (h : s.write t k guard = .written s') (hi : s.Idle t) (ht : t' ≠ t) :
    s.Keeps s' t' :=
  ⟨fun _ hh => hh.write h hi, fun hidle => hidle.write h hi ht⟩

theorem Consistent.write (hc : s.Consistent R) (h : s.write t k guard = .written s')
    (hi : s.Idle t) (hR : ∀ v, guard (s k).committed = some v → R k t (s k).committed v) :
    s'.Consistent R := by
  obtain ⟨v, hv, -, rfl⟩ := write_written h hi
  intro k' t' v' hw
  by_cases hk : k' = k
  · subst hk
    rw [set_self] at hw ⊢
    cases hw
    exact hR v hv
  · rw [set_ne _ hk] at hw ⊢
    exact hc k' t' v' hw

/-! ## The end of a transaction -/

omit [DecidableEq κ] in
/-- Rows that the transaction has not written are not changed by its end. -/
theorem commit_of_not_holds (h : ¬ s.Holds t k) : s.commit t k = s k := by
  unfold commit
  split
  · rename_i t' v hw
    rw [if_neg]
    rintro rfl
    exact h ⟨v, hw⟩
  · rfl

omit [DecidableEq κ] in
theorem commit_of_writer {v : α} (h : (s k).writer = some (t, v)) :
    s.commit t k = { committed := v } := by
  simp [commit, h]

omit [DecidableEq κ] in
theorem abort_of_not_holds (h : ¬ s.Holds t k) : s.abort t k = s k := by
  unfold abort
  split
  · rename_i t' v hw
    rw [if_neg]
    rintro rfl
    exact h ⟨v, hw⟩
  · rfl

omit [DecidableEq κ] in
theorem committed_abort (s : Table κ τ α) (t : τ) (k : κ) :
    (s.abort t k).committed = (s k).committed := by
  unfold abort
  split
  · split <;> rfl
  · rfl

omit [DecidableEq κ] in
theorem idle_commit (s : Table κ τ α) (t : τ) : (s.commit t).Idle t := by
  intro k v hw
  by_cases h : s.Holds t k
  · obtain ⟨v', hv'⟩ := h
    rw [commit_of_writer hv'] at hw
    cases hw
  · rw [commit_of_not_holds h] at hw
    exact h ⟨v, hw⟩

omit [DecidableEq κ] in
theorem idle_abort (s : Table κ τ α) (t : τ) : (s.abort t).Idle t := by
  intro k v hw
  by_cases h : s.Holds t k
  · obtain ⟨v', hv'⟩ := h
    simp [abort, hv'] at hw
  · rw [abort_of_not_holds h] at hw
    exact h ⟨v, hw⟩

omit [DecidableEq κ] [DecidableEq τ] in
/-- A row has one writer. -/
theorem Holds.not_other (h : s.Holds t k) (ht : t' ≠ t) : ¬ s.Holds t' k := by
  rintro ⟨v', hv'⟩
  obtain ⟨v, hv⟩ := h
  rw [hv] at hv'
  cases hv'
  exact ht rfl

omit [DecidableEq κ] in
theorem Holds.commit (h : s.Holds t' k) (ht : t' ≠ t) : (s.commit t).Holds t' k := by
  obtain ⟨v, hv⟩ := h
  exact ⟨v, by rw [commit_of_not_holds (Holds.not_other ⟨v, hv⟩ ht.symm), hv]⟩

omit [DecidableEq κ] in
theorem Holds.abort (h : s.Holds t' k) (ht : t' ≠ t) : (s.abort t).Holds t' k := by
  obtain ⟨v, hv⟩ := h
  exact ⟨v, by rw [abort_of_not_holds (Holds.not_other ⟨v, hv⟩ ht.symm), hv]⟩

omit [DecidableEq κ] in
theorem Idle.commit (h : s.Idle t') (t : τ) : (s.commit t).Idle t' := by
  intro k v hw
  by_cases hh : s.Holds t k
  · obtain ⟨v', hv'⟩ := hh
    rw [commit_of_writer hv'] at hw
    cases hw
  · rw [commit_of_not_holds hh] at hw
    exact h k v hw

omit [DecidableEq κ] in
theorem Idle.abort (h : s.Idle t') (t : τ) : (s.abort t).Idle t' := by
  intro k v hw
  by_cases hh : s.Holds t k
  · obtain ⟨v', hv'⟩ := hh
    simp [Table.abort, hv'] at hw
  · rw [abort_of_not_holds hh] at hw
    exact h k v hw

omit [DecidableEq κ] in
theorem keeps_commit (s : Table κ τ α) (ht : t' ≠ t) : s.Keeps (s.commit t) t' :=
  ⟨fun _ hh => hh.commit ht, fun hidle => hidle.commit t⟩

omit [DecidableEq κ] in
theorem keeps_abort (s : Table κ τ α) (ht : t' ≠ t) : s.Keeps (s.abort t) t' :=
  ⟨fun _ hh => hh.abort ht, fun hidle => hidle.abort t⟩

omit [DecidableEq κ] in
theorem Consistent.commit (h : s.Consistent R) (t : τ) : (s.commit t).Consistent R := by
  intro k t' v hw
  by_cases hh : s.Holds t k
  · obtain ⟨v', hv'⟩ := hh
    rw [commit_of_writer hv'] at hw
    cases hw
  · rw [commit_of_not_holds hh] at hw ⊢
    exact h k t' v hw

omit [DecidableEq κ] in
theorem Consistent.abort (h : s.Consistent R) (t : τ) : (s.abort t).Consistent R := by
  intro k t' v hw
  rw [committed_abort]
  by_cases hh : s.Holds t k
  · obtain ⟨v', hv'⟩ := hh
    simp [Table.abort, hv'] at hw
  · rw [abort_of_not_holds hh] at hw
    exact h k t' v hw

omit [DecidableEq κ] [DecidableEq τ] in
theorem Consistent.mono {R' : κ → τ → α → α → Prop} (h : s.Consistent R)
    (hR : ∀ k t v, (s k).writer = some (t, v) → R k t (s k).committed v →
      R' k t (s k).committed v) : s.Consistent R' :=
  fun k t v hw => hR k t v hw (h k t v hw)

end Table

end Lib
end AutoSRE
