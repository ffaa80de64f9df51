import Mathlib.Logic.Relation

/-!
# Labelled systems and their runs

A system (`Sys`) has initial states and labelled steps. A label is one choice of the
environment (what a called service answers, which thread moves, what a crash hits); a step logs
the events that the properties of a run are stated over.

* `Sys.Run C n es s`: a run of `n` steps that ends in `s` and logged `es`, where every step
  satisfies the side condition `C` (a relation between the state before the step and its label).
  `C := Sys.anyStep` are all runs.
* `Run.inv`: a property of the log and the state that holds initially and that every step keeps
  holds after every run.
* `Run.split`: an event of the log was logged by a step, and the events before it are the log of
  the run up to that step followed by what the step logged first.
* `Run.simulate`: the runs of a system whose steps are steps of another are runs of the other.
* `Sys.Later C s s'`: some steps lead from `s` to `s'`, each of which satisfies `C`.
* `Run.length_le`: a rank that every step decreases bounds the length of a run.
* `Sys.drive`: the run under a driver, which chooses each label from the log and the state so far;
  when a rank bounds the runs and every state that is not final has a step, it ends in a final state
  (`Run.drive_final`).
* `Sys.exec`: the run of a list of labels, and the evaluation of what holds of it.
-/

namespace AutoSRE
namespace Lib

/-- A labelled system: `σ` are the states, `l` the labels, `ε` the events. -/
structure Sys (σ l ε : Type) where
  init : σ → Prop
  /-- The step of a label; `none` when the label is not enabled. -/
  step : σ → l → Option (σ × List ε)

namespace Sys

variable {σ l ε : Type} (S : Sys σ l ε)

/-- The side condition of unrestricted runs. -/
def anyStep : σ → l → Prop := fun _ _ => True

/-- The runs whose steps satisfy `C`. -/
inductive Run (C : σ → l → Prop) : Nat → List ε → σ → Prop
  | init {s : σ} : S.init s → Run C 0 [] s
  | step {n : Nat} {es : List ε} {s s' : σ} (a : l) {fs : List ε} :
      Run C n es s → C s a → S.step s a = some (s', fs) → Run C (n + 1) (es ++ fs) s'

variable {S} {C D : σ → l → Prop}

theorem Run.mono (h : ∀ s a, C s a → D s a) {n : Nat} {es : List ε} {s : σ}
    (hr : S.Run C n es s) : S.Run D n es s := by
  induction hr with
  | init hi => exact .init hi
  | step a _ hc hs ih => exact .step a ih (h _ _ hc) hs

/-- A run is a run of the system without a side condition. -/
theorem Run.any {n : Nat} {es : List ε} {s : σ} (hr : S.Run C n es s) :
    S.Run anyStep n es s :=
  hr.mono fun _ _ _ => trivial

/-- The invariant rule. The step case may use that the state before it is reached by a run. -/
theorem Run.inv {I : List ε → σ → Prop} (hinit : ∀ s, S.init s → I [] s)
    (hstep : ∀ n es s a s' fs, S.Run C n es s → I es s → C s a → S.step s a = some (s', fs) →
      I (es ++ fs) s')
    {n : Nat} {es : List ε} {s : σ} (hr : S.Run C n es s) : I es s := by
  induction hr with
  | init hi => exact hinit _ hi
  | step a hr hc hs ih => exact hstep _ _ _ a _ _ hr ih hc hs

/-- The invariant rule for a property of the state alone. -/
theorem Run.stateInv {I : σ → Prop} (hinit : ∀ s, S.init s → I s)
    (hstep : ∀ s a s' fs, I s → C s a → S.step s a = some (s', fs) → I s')
    {n : Nat} {es : List ε} {s : σ} (hr : S.Run C n es s) : I s :=
  hr.inv (I := fun _ s => I s) hinit fun _ _ s a s' fs _ hi hc hs => hstep s a s' fs hi hc hs

/-- An event of the log was logged by one of the steps. -/
theorem Run.split {n : Nat} {es : List ε} {s : σ} (hr : S.Run C n es s) {pre post : List ε}
    {e : ε} (he : es = pre ++ e :: post) :
    ∃ n₁ es₁ s₁ a s₂ fs fs₁ fs₂, S.Run C n₁ es₁ s₁ ∧ C s₁ a ∧ S.step s₁ a = some (s₂, fs) ∧
      fs = fs₁ ++ e :: fs₂ ∧ pre = es₁ ++ fs₁ := by
  induction hr generalizing post with
  | init _ => simp at he
  | @step n es s s' a fs hr hc hs ih =>
    -- The event is in the old log or in what the last step logged.
    rcases List.append_eq_append_iff.mp he with ⟨fs₁, hpre, hfs⟩ | ⟨post₁, hes, hpost⟩
    · exact ⟨n, es, s, a, s', fs, fs₁, post, hr, hc, hs, hfs, hpre⟩
    · cases post₁ with
      | nil =>
        simp only [List.append_nil, List.nil_append] at hes hpost
        exact ⟨n, es, s, a, s', fs, [], post, hr, hc, hs, hpost.symm, by simp [hes]⟩
      | cons e' post' =>
        simp only [List.cons_append, List.cons.injEq] at hpost
        obtain ⟨rfl, -⟩ := hpost
        exact ih hes

/-- An event of the log was logged by one of the steps (`Run.split` without the positions). -/
theorem Run.logged {n : Nat} {es : List ε} {s : σ} (hr : S.Run C n es s) {e : ε} (he : e ∈ es) :
    ∃ n₁ es₁ s₁ a s₂ fs, S.Run C n₁ es₁ s₁ ∧ C s₁ a ∧ S.step s₁ a = some (s₂, fs) ∧ e ∈ fs := by
  obtain ⟨pre, post, rfl⟩ := List.append_of_mem he
  obtain ⟨n₁, es₁, s₁, a, s₂, fs, fs₁, fs₂, h₁, hc, hs, hfs, -⟩ := hr.split rfl
  exact ⟨n₁, es₁, s₁, a, s₂, fs, h₁, hc, hs, by simp [hfs]⟩

/-- A run of a system each of whose steps is a step of another is a run of the other. -/
theorem Run.simulate {k : Type} {T : Sys σ k ε} (f : l → k) (hinit : ∀ s, S.init s → T.init s)
    (hstep : ∀ s a r, S.step s a = some r → T.step s (f a) = some r) {n : Nat} {es : List ε}
    {s : σ} (hr : S.Run C n es s) : T.Run anyStep n es s := by
  induction hr with
  | init hi => exact .init (hinit _ hi)
  | step a _ _ hs ih => exact .step (f a) ih trivial (hstep _ a _ hs)

/-- A rank that every step of an invariant state decreases bounds the length of a run. -/
theorem Run.length_le {I : σ → Prop} (rank : σ → Nat) {N : Nat}
    (hinit : ∀ s, S.init s → I s ∧ rank s ≤ N)
    (hstep : ∀ s a s' fs, I s → C s a → S.step s a = some (s', fs) → I s' ∧ rank s' < rank s)
    {n : Nat} {es : List ε} {s : σ} (hr : S.Run C n es s) : n + rank s ≤ N := by
  have key : I s ∧ n + rank s ≤ N := by
    induction hr with
    | init hi => simpa using hinit _ hi
    | step a _ hc hs ih =>
      obtain ⟨hi', hlt⟩ := hstep _ a _ _ ih.1 hc hs
      exact ⟨hi', by have := ih.2; omega⟩
  exact key.2

/-! ## Later states -/

variable (S) in
/-- A step that satisfies `C` leads from `s` to `s'`. -/
def Succ (C : σ → l → Prop) (s s' : σ) : Prop := ∃ a fs, C s a ∧ S.step s a = some (s', fs)

variable (S) in
/-- Steps that satisfy `C` lead from `s` to `s'`. -/
def Later (C : σ → l → Prop) : σ → σ → Prop := Relation.ReflTransGen (S.Succ C)

/-- A state after that of a run is the state of a longer run. -/
theorem Run.later {n : Nat} {es : List ε} {s s' : σ} (hr : S.Run C n es s)
    (hl : S.Later C s s') : ∃ n' es', S.Run C n' es' s' := by
  induction hl with
  | refl => exact ⟨n, es, hr⟩
  | tail _ hs ih =>
    obtain ⟨n', es', hr'⟩ := ih
    obtain ⟨a, fs, hc, hs⟩ := hs
    exact ⟨n' + 1, es' ++ fs, .step a hr' hc hs⟩

/-- The invariant rule for what a state and a later one have in common. -/
theorem Run.laterInv {R : σ → σ → Prop} (hrefl : ∀ s, R s s)
    (htrans : ∀ s₁ s₂ s₃, R s₁ s₂ → R s₂ s₃ → R s₁ s₃)
    (hstep : ∀ n es s a s' fs, S.Run C n es s → C s a → S.step s a = some (s', fs) → R s s')
    {n : Nat} {es : List ε} {s s' : σ} (hr : S.Run C n es s) (hl : S.Later C s s') : R s s' := by
  induction hl with
  | refl => exact hrefl s
  | @tail s₁ s₂ hl hs ih =>
    obtain ⟨n', es', hr'⟩ := hr.later hl
    obtain ⟨a, fs, hc, hs⟩ := hs
    exact htrans _ _ _ ih (hstep n' es' s₁ a s₂ fs hr' hc hs)

/-! ## Driven runs -/

variable (S) in
/-- `k` steps from a log and a state, with the labels that `next` chooses; it stops at a label that
is not enabled. -/
def drive (next : List ε → σ → l) : Nat → List ε × σ → List ε × σ
  | 0, r => r
  | k + 1, r =>
    match S.step r.2 (next r.1 r.2) with
    | none => r
    | some (s', fs) => drive next k (r.1 ++ fs, s')

/-- The label that the driver chooses is not enabled. -/
def Stuck (S : Sys σ l ε) (next : List ε → σ → l) (r : List ε × σ) : Prop :=
  S.step r.2 (next r.1 r.2) = none

/-- A stuck run stays where it is. -/
theorem drive_stuck {next : List ε → σ → l} {r : List ε × σ} (h : Stuck S next r) (k : Nat) :
    S.drive next k r = r := by
  unfold Stuck at h
  cases k with
  | zero => rfl
  | succ k => simp only [Sys.drive, h]

/-- A driven run is a run. It has all its steps, unless it is stuck. -/
theorem Run.drive {next : List ε → σ → l} {n : Nat} {es : List ε} {s : σ} (hr : S.Run C n es s)
    (hC : ∀ k es' s', S.drive next k (es, s) = (es', s') → C s' (next es' s')) (k : Nat)
    {es' : List ε} {s' : σ} (hk : S.drive next k (es, s) = (es', s')) :
    ∃ m, S.Run C (n + m) es' s' ∧ (m = k ∨ Stuck S next (es', s')) := by
  induction k generalizing n es s with
  | zero =>
    cases hk
    exact ⟨0, hr, .inl rfl⟩
  | succ k ih =>
    cases hs : S.step s (next es s) with
    | none =>
      have hstuck : Stuck S next (es, s) := hs
      obtain ⟨rfl, rfl⟩ := Prod.mk.inj ((drive_stuck hstuck (k + 1)).symm.trans hk)
      exact ⟨0, hr, .inr hstuck⟩
    | some q =>
      obtain ⟨s₁, fs⟩ := q
      have hgo : ∀ j, S.drive next (j + 1) (es, s) = S.drive next j (es ++ fs, s₁) := by
        intro j
        simp only [Sys.drive, hs]
      obtain ⟨m, hm, hmk⟩ := ih (.step _ hr (hC 0 es s rfl) hs)
        (fun j es₂ s₂ hj => hC (j + 1) es₂ s₂ ((hgo j).trans hj)) ((hgo k).symm.trans hk)
      exact ⟨1 + m, by rwa [← Nat.add_assoc], hmk.imp_left fun h => by omega⟩

/-- A driven run ends in a final state, when a rank bounds the runs and is positive where there is a
step, and the driver chooses an enabled label in every state that is not final. -/
theorem Run.drive_final {F : σ → Prop} (rank : σ → Nat) {N : Nat}
    (hlen : ∀ n es s, S.Run C n es s → n + rank s ≤ N)
    (hpos : ∀ n es s a s' fs, S.Run C n es s → S.step s a = some (s', fs) → 0 < rank s)
    {next : List ε → σ → l} {n : Nat} {es : List ε} {s : σ} (hr : S.Run C n es s)
    (hC : ∀ k es' s', S.drive next k (es, s) = (es', s') → C s' (next es' s')) {es' : List ε}
    {s' : σ} (hN : S.drive next N (es, s) = (es', s'))
    (hstep : ∀ m, S.Run C m es' s' → ¬ F s' → ¬ Stuck S next (es', s')) : F s' := by
  obtain ⟨m, hm, hmN⟩ := hr.drive hC N hN
  refine Classical.byContradiction fun hf => ?_
  have hns := hstep _ hm hf
  -- All `N` steps were made, so there is no rank left for the step that is enabled.
  obtain rfl := hmN.resolve_right hns
  obtain ⟨⟨s₁, fs⟩, hs⟩ := Option.ne_none_iff_exists'.mp hns
  have := hlen _ _ _ hm
  have := hpos _ _ _ _ _ _ hm hs
  omega

/-! ## Executing a list of labels -/

variable (S)

/-- The run of a list of labels from `s`; `none` when one of them is not enabled. -/
def exec : σ → List l → Option (σ × List ε)
  | s, [] => some (s, [])
  | s, a :: as =>
    match S.step s a with
    | none => none
    | some (s', fs) => (exec s' as).map fun r => (r.1, fs ++ r.2)

variable {S}

theorem exec_run {n : Nat} {es : List ε} {s : σ} (hr : S.Run C n es s) {as : List l}
    (hC : ∀ s, ∀ a ∈ as, C s a) {s' : σ} {fs : List ε} (h : S.exec s as = some (s', fs)) :
    S.Run C (n + as.length) (es ++ fs) s' := by
  induction as generalizing n es s s' fs with
  | nil =>
    simp only [exec, Option.some.injEq, Prod.mk.injEq] at h
    obtain ⟨rfl, rfl⟩ := h
    simpa using hr
  | cons a as ih =>
    simp only [exec] at h
    split at h
    · cases h
    · rename_i s₁ fs₁ hs
      obtain ⟨⟨s₂, fs₂⟩, h₂, he⟩ := Option.map_eq_some_iff.mp h
      simp only [Prod.mk.injEq] at he
      obtain ⟨rfl, rfl⟩ := he
      have := ih (.step a hr (hC _ a List.mem_cons_self) hs)
        (fun s b hb => hC s b (List.mem_cons_of_mem a hb)) h₂
      rw [List.append_assoc] at this
      rwa [List.length_cons, Nat.add_comm as.length 1, ← Nat.add_assoc]

/-- Labels that satisfy the side condition everywhere, executed from an initial state, are a run. -/
theorem run_of_exec {s : σ} (hi : S.init s) {as : List l} (hC : ∀ s, ∀ a ∈ as, C s a) {s' : σ}
    {fs : List ε} (h : S.exec s as = some (s', fs)) : S.Run C as.length fs s' := by
  simpa using exec_run (.init hi) hC h

/-- A run that passes a check, from its evaluation. -/
theorem exists_run_of_exec {s : σ} (hi : S.init s) {as : List l} (hC : ∀ s, ∀ a ∈ as, C s a)
    {check : σ × List ε → Bool} (h : (S.exec s as).any check = true) :
    ∃ s' es, S.Run C as.length es s' ∧ check (s', es) = true := by
  obtain ⟨⟨s', es⟩, he, hc⟩ := (Option.any_eq_true _ _).mp h
  exact ⟨s', es, run_of_exec hi hC he, hc⟩

/-- A run without a side condition that passes a check, from its evaluation. -/
theorem exists_any_run {s : σ} (hi : S.init s) {as : List l} {check : σ × List ε → Bool}
    (h : (S.exec s as).any check = true) :
    ∃ s' es, S.Run anyStep as.length es s' ∧ check (s', es) = true :=
  exists_run_of_exec hi (fun _ _ _ => trivial) h

/-- The system whose steps pass a check. -/
def restrict (S : Sys σ l ε) (c : σ → l → Bool) : Sys σ l ε where
  init := S.init
  step s a := if c s a then S.step s a else none

theorem restrict_run {c : σ → l → Bool} {n : Nat} {es : List ε} {s : σ}
    (hr : (S.restrict c).Run D n es s) : S.Run (fun s a => D s a ∧ c s a = true) n es s := by
  induction hr with
  | init hi => exact .init hi
  | step a _ hd hs ih =>
    simp only [restrict] at hs
    split at hs
    · rename_i h
      exact .step a ih ⟨hd, h⟩ hs
    · cases hs

/-- A run whose steps meet the side condition, from the evaluation of a check of each step. -/
theorem exists_checked_run {c : σ → l → Bool} (hc : ∀ s a, c s a = true → C s a) {s : σ}
    (hi : S.init s) {as : List l} {check : σ × List ε → Bool}
    (h : ((S.restrict c).exec s as).any check = true) :
    ∃ s' es, S.Run C as.length es s' ∧ check (s', es) = true := by
  obtain ⟨s', es, hr, hchk⟩ := exists_any_run (S := S.restrict c) hi h
  exact ⟨s', es, (restrict_run hr).mono fun s a h => hc s a h.2, hchk⟩

/-- An event of a log that grows is an old one, or a new one. -/
theorem split_append {es fs pre post : List ε} {e : ε} (h : es ++ fs = pre ++ e :: post) :
    (∃ post', es = pre ++ e :: post' ∧ post = post' ++ fs) ∨
      ∃ fs₁, fs = fs₁ ++ e :: post ∧ pre = es ++ fs₁ := by
  rcases List.append_eq_append_iff.mp h with ⟨fs₁, hpre, hfs⟩ | ⟨post', hes, hpost⟩
  · exact .inr ⟨fs₁, hfs, hpre⟩
  · cases post' with
    | nil => exact .inr ⟨[], by simpa using hpost.symm, by simpa using hes.symm⟩
    | cons e' post' =>
      obtain ⟨rfl, htail⟩ := List.cons.inj hpost
      exact .inl ⟨post', hes, htail⟩

/-- The position of an event in a log. -/
theorem split_of_getElem? {es : List ε} {k : Nat} {e : ε} (h : es[k]? = some e) :
    es = es.take k ++ e :: es.drop (k + 1) := by
  obtain ⟨hk, rfl⟩ := List.getElem?_eq_some_iff.mp h
  rw [List.getElem_cons_drop, List.take_append_drop]

/-- A list around one of its elements, without the element and with another one in its place. -/
theorem around_getElem? {α : Type} {xs : List α} {i : Nat} {x : α} (h : xs[i]? = some x) :
    ∃ ys zs, xs = ys ++ x :: zs ∧ xs.eraseIdx i = ys ++ zs ∧ ∀ y, xs.set i y = ys ++ y :: zs := by
  refine ⟨_, _, split_of_getElem? h, List.eraseIdx_eq_take_drop_succ xs i, fun y => ?_⟩
  obtain ⟨hi, -⟩ := List.getElem?_eq_some_iff.mp h
  rw [List.set_eq_take_append_cons_drop, if_pos hi]

/-- What is left of a list without an element. -/
theorem mem_of_around {α : Type} {xs ys zs : List α} {x y : α} (hs : xs = ys ++ x :: zs)
    (hy : y ∈ ys ++ zs) : y ∈ xs := by
  rw [hs]
  rcases List.mem_append.mp hy with hy | hy
  · exact List.mem_append_left _ hy
  · exact List.mem_append_right _ (List.mem_cons_of_mem x hy)

end Sys

end Lib
end AutoSRE
