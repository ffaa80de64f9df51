import AutoSRE.Lib.Sys

/-!
# Refinement mappings

A refinement mapping (`Refines`) reads the states and the log of one system as those of another: a
step of the first system is a step of the second, or none.

* `Refines.run`: the runs of the first system are runs of the second, so what holds after every run
  of the second holds after every run of the first.
* A system of several parts refines each of its parts; the events of a part are `filterMap h` of
  the log.
-/

namespace AutoSRE
namespace Lib

variable {σ τ l k ε δ : Type}

/-- `f` maps the states and `h` the events of `S` to those of `T`. -/
structure Refines (S : Sys σ l ε) (C : σ → l → Prop) (T : Sys τ k δ) (D : τ → k → Prop)
    (f : σ → τ) (h : ε → Option δ) : Prop where
  init : ∀ s, S.init s → T.init (f s)
  step : ∀ s a s' fs, C s a → S.step s a = some (s', fs) →
    (f s' = f s ∧ fs.filterMap h = []) ∨
      ∃ b, D (f s) b ∧ T.step (f s) b = some (f s', fs.filterMap h)

/-- The runs of the first system are runs of the second. -/
theorem Refines.run {S : Sys σ l ε} {C : σ → l → Prop} {T : Sys τ k δ} {D : τ → k → Prop}
    {f : σ → τ} {h : ε → Option δ} (hf : Refines S C T D f h) {n : Nat} {es : List ε} {s : σ}
    (hr : S.Run C n es s) : ∃ m, T.Run D m (es.filterMap h) (f s) := by
  induction hr with
  | init hi => exact ⟨0, .init (hf.init _ hi)⟩
  | @step n es s s' a fs _ hc hs ih =>
    obtain ⟨m, hm⟩ := ih
    rw [List.filterMap_append]
    rcases hf.step s a s' fs hc hs with ⟨hsame, hnone⟩ | ⟨b, hd, hb⟩
    · rw [hsame, hnone, List.append_nil]
      exact ⟨m, hm⟩
    · exact ⟨m + 1, .step b hm hd hb⟩

end Lib
end AutoSRE
