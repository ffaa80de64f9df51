import Mathlib.Logic.Function.Basic

/-!
# Machines by key

A machine takes its inputs one after the other, and gives an output for each. A table has the state
of one machine for each key, and an input of the table is for one key (`keyed`).

* `exec` and `run`: the last state, and the inputs with their outputs (`run_getElem?`).
* `exec_keyed`: the state of a key is what the inputs of the key alone lead to.
* `run_keyed` and `filter_run_keyed`: and so are its outputs, whatever the other keys get.
-/

namespace AutoSRE
namespace Lib
namespace Keyed

variable {κ σ ι ο : Type}

/-- The state after the inputs. -/
def exec (step : ι → σ → ο × σ) : σ → List ι → σ
  | s, [] => s
  | s, x :: xs => exec step (step x s).2 xs

/-- The inputs with their outputs. -/
def run (step : ι → σ → ο × σ) : σ → List ι → List (ι × ο)
  | _, [] => []
  | s, x :: xs => (x, (step x s).1) :: run step (step x s).2 xs

/-- An output is that of the state which the inputs before lead to. -/
theorem run_getElem? (step : ι → σ → ο × σ) (s : σ) (xs : List ι) (i : Nat) :
    (run step s xs)[i]? = xs[i]?.map fun x => (x, (step x (exec step s (xs.take i))).1) := by
  induction xs generalizing s i with
  | nil => rfl
  | cons x xs ih =>
    cases i with
    | zero => rfl
    | succ i => exact ih (step x s).2 i

/-- An input is for the key that it names. -/
def keyed [DecidableEq κ] (step : ι → σ → ο × σ) (x : κ × ι) (m : κ → σ) : ο × (κ → σ) :=
  ((step x.2 (m x.1)).1, Function.update m x.1 (step x.2 (m x.1)).2)

/-- The inputs of a key. -/
def inputs [DecidableEq κ] (k : κ) (xs : List (κ × ι)) : List ι :=
  (xs.filter fun x => x.1 = k).map (·.2)

variable [DecidableEq κ] (step : ι → σ → ο × σ)

@[simp] theorem keyed_self (k : κ) (x : ι) (m : κ → σ) :
    (keyed step (k, x) m).2 k = (step x (m k)).2 := Function.update_self ..

theorem keyed_ne {k : κ} {x : κ × ι} (h : x.1 ≠ k) (m : κ → σ) : (keyed step x m).2 k = m k :=
  Function.update_of_ne h.symm ..

theorem inputs_cons_self (k : κ) (x : ι) (xs : List (κ × ι)) :
    inputs k ((k, x) :: xs) = x :: inputs k xs := by simp [inputs]

theorem inputs_cons_ne {k : κ} {x : κ × ι} (h : x.1 ≠ k) (xs : List (κ × ι)) :
    inputs k (x :: xs) = inputs k xs := by simp [inputs, h]

theorem mem_inputs {k : κ} {x : ι} {xs : List (κ × ι)} : x ∈ inputs k xs ↔ (k, x) ∈ xs := by
  simp only [inputs, List.mem_map, List.mem_filter, decide_eq_true_eq]
  constructor
  · rintro ⟨⟨k', y⟩, ⟨hmem, rfl⟩, rfl⟩
    exact hmem
  · exact fun h => ⟨(k, x), ⟨h, rfl⟩, rfl⟩

/-- The state of a key depends on its inputs only. -/
theorem exec_keyed (k : κ) (m : κ → σ) (xs : List (κ × ι)) :
    exec (keyed step) m xs k = exec step (m k) (inputs k xs) := by
  induction xs generalizing m with
  | nil => rfl
  | cons x xs ih =>
    rw [exec, ih]
    obtain ⟨k', x⟩ := x
    by_cases h : k' = k
    · subst h
      rw [keyed_self, inputs_cons_self, exec]
    · rw [keyed_ne step h, inputs_cons_ne h]

/-- The outputs of a key depend on its inputs only. -/
theorem run_keyed (k : κ) (m : κ → σ) (xs : List (κ × ι)) :
    ((run (keyed step) m xs).filter fun d => d.1.1 = k).map (fun d => (d.1.2, d.2)) =
      run step (m k) (inputs k xs) := by
  induction xs generalizing m with
  | nil => rfl
  | cons x xs ih =>
    obtain ⟨k', x⟩ := x
    have ih := ih (keyed step (k', x) m).2
    by_cases h : k' = k
    · subst h
      rw [run, inputs_cons_self, run, List.filter_cons_of_pos (by simp), List.map_cons, ih,
        keyed_self]
      rfl
    · rw [run, inputs_cons_ne h, List.filter_cons_of_neg (by simpa using h), ih, keyed_ne step h]

/-- What a key gets is what it gets when the inputs of the other keys are left out. -/
theorem filter_run_keyed (k : κ) (m : κ → σ) (xs : List (κ × ι)) :
    (run (keyed step) m xs).filter (fun d => d.1.1 = k) =
      run (keyed step) m (xs.filter fun x => x.1 = k) := by
  -- The tables may differ elsewhere, so the induction is over two that agree at the key.
  suffices h : ∀ m' : κ → σ, m k = m' k →
      (run (keyed step) m xs).filter (fun d => d.1.1 = k) =
        run (keyed step) m' (xs.filter fun x => x.1 = k) from h m rfl
  induction xs generalizing m with
  | nil => exact fun _ _ => rfl
  | cons x xs ih =>
    intro m' hm
    obtain ⟨k', x⟩ := x
    by_cases h : k' = k
    · subst h
      rw [run, List.filter_cons_of_pos (by simp), List.filter_cons_of_pos (by simp), run,
        ih (keyed step (k', x) m).2 (keyed step (k', x) m').2 (by simp only [keyed_self, hm])]
      simp only [keyed, hm]
    · rw [run, List.filter_cons_of_neg (by simpa using h),
        List.filter_cons_of_neg (by simpa using h)]
      exact ih (keyed step (k', x) m).2 m' ((keyed_ne step h m).trans hm)

end Keyed
end Lib
end AutoSRE
