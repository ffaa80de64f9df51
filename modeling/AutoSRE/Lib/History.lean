import AutoSRE.Lib.Prog

/-!
# The calls of a thread

- **A program on its way** (`Prog.Leads`). Calls, with their replies, lead from a program to what is
  left of it. `leads_bind` cuts them where the first of two programs ends.
- **Retries** (`Prog.attempt`). A call that is made again while its reply asks for it.
- **The calls that a program may make** (`Prog.Only`).
- **Own calls** (`callsOf`). The calls of a thread in a log, whatever the others do between them
  (`split_callsOf`).
- **The current run** (`current_run`). The last calls of a thread lead from its program to what is
  left of it; so do those before any call of the log (`called_split`).
-/

namespace AutoSRE
namespace Lib

variable {ι : Type} {ρ : ι → Type} {α γ : Type}

namespace Prog

/-! ## A program on its way -/

/-- The calls lead from a program to another. -/
inductive Leads : Prog ρ α → List ((c : ι) × ρ c) → Prog ρ α → Prop
  | done (p : Prog ρ α) : Leads p [] p
  | call {c : ι} {k : ρ c → Prog ρ α} {r : ρ c} {calls : List ((c : ι) × ρ c)} {q : Prog ρ α} :
      Leads (k r) calls q → Leads (.call c k) (⟨c, r⟩ :: calls) q

/-- One more call. -/
theorem Leads.snoc {p : Prog ρ α} {calls : List ((c : ι) × ρ c)} {c : ι} {k : ρ c → Prog ρ α}
    (h : Leads p calls (.call c k)) (r : ρ c) : Leads p (calls ++ [⟨c, r⟩]) (k r) := by
  generalize hq : Prog.call c k = q at h
  induction h with
  | done p =>
    subst hq
    exact .call (.done _)
  | call _ ih => exact .call (ih hq)

/-- A program that is over goes nowhere. -/
theorem leads_ret {a : α} {calls : List ((c : ι) × ρ c)} {q : Prog ρ α}
    (h : Leads (.ret a) calls q) : calls = [] ∧ q = .ret a := by
  cases h
  exact ⟨rfl, rfl⟩

/-- The first call of a program, unless none is made. -/
theorem leads_call {c : ι} {k : ρ c → Prog ρ α} {calls : List ((c : ι) × ρ c)} {q : Prog ρ α}
    (h : Leads (.call c k) calls q) :
    calls = [] ∧ q = .call c k ∨ ∃ r rest, calls = ⟨c, r⟩ :: rest ∧ Leads (k r) rest q := by
  cases h with
  | done => exact .inl ⟨rfl, rfl⟩
  | call h => exact .inr ⟨_, _, rfl, h⟩

/-- The calls of two programs are on their way through the first one, or have come to its end. -/
theorem leads_bind {p : Prog ρ α} {f : α → Prog ρ γ} {calls : List ((c : ι) × ρ c)} {q : Prog ρ γ}
    (h : Leads (p >>= f) calls q) :
    (∃ p', q = (p' >>= f) ∧ Leads p calls p' ∧ ∀ a, p' ≠ .ret a) ∨
      ∃ first rest a, calls = first ++ rest ∧ Leads p first (.ret a) ∧ Leads (f a) rest q := by
  induction p generalizing calls with
  | ret a => exact .inr ⟨[], calls, a, rfl, .done _, h⟩
  | call c k ih =>
    rw [call_bind] at h
    rcases leads_call h with ⟨rfl, rfl⟩ | ⟨r, rest, rfl, h'⟩
    · exact .inl ⟨.call c k, rfl, .done _, by simp⟩
    · rcases ih r h' with ⟨p', rfl, hp, hne⟩ | ⟨first, rest', a, rfl, hp, hf⟩
      · exact .inl ⟨p', rfl, .call hp, hne⟩
      · exact .inr ⟨⟨c, r⟩ :: first, rest', a, rfl, .call hp, hf⟩

/-! ## Retries -/

/-- The call `c`, made again while its reply asks for it, `n` times at most. -/
def attempt (c : ι) (again : ρ c → Bool) : Nat → Prog ρ (ρ c)
  | 0 => .call c .ret
  | n + 1 => .call c fun r => if again r then attempt c again n else .ret r

/-- The calls of an attempt are the same one; the last reply counts. -/
theorem leads_attempt {c : ι} {again : ρ c → Bool} {n : Nat} {calls : List ((c : ι) × ρ c)}
    {r : ρ c} (h : Leads (attempt c again n) calls (.ret r)) :
    ∃ tries : List (ρ c), calls = tries.map (Sigma.mk c) ++ [⟨c, r⟩] := by
  induction n generalizing calls with
  | zero =>
    rcases leads_call h with ⟨-, hne⟩ | ⟨r', rest, rfl, h'⟩
    · cases hne
    · obtain ⟨rfl, he⟩ := leads_ret h'
      cases he
      exact ⟨[], rfl⟩
  | succ n ih =>
    rcases leads_call h with ⟨-, hne⟩ | ⟨r', rest, rfl, h'⟩
    · cases hne
    · split at h'
      · obtain ⟨tries, rfl⟩ := ih h'
        exact ⟨r' :: tries, rfl⟩
      · obtain ⟨rfl, he⟩ := leads_ret h'
        cases he
        exact ⟨[], rfl⟩

/-! ## The calls that a program may make -/

/-- Every call of the program satisfies `P`. -/
def Only (P : ι → Prop) : Prog ρ α → Prop
  | .ret _ => True
  | .call c k => P c ∧ ∀ r, Only P (k r)

theorem Only.mono {P Q : ι → Prop} (h : ∀ c, P c → Q c) {p : Prog ρ α} (hp : Only P p) :
    Only Q p := by
  induction p with
  | ret a => trivial
  | call c k ih => exact ⟨h c hp.1, fun r => ih r (hp.2 r)⟩

theorem Only.bind {P : ι → Prop} {p : Prog ρ α} {f : α → Prog ρ γ} (hp : Only P p)
    (hf : ∀ a, Only P (f a)) : Only P (p >>= f) := by
  induction p with
  | ret a => exact hf a
  | call c k ih => exact ⟨hp.1, fun r => ih r (hp.2 r)⟩

theorem only_attempt {P : ι → Prop} {c : ι} (h : P c) (again : ρ c → Bool) (n : Nat) :
    Only P (attempt c again n) := by
  induction n with
  | zero => exact ⟨h, fun _ => trivial⟩
  | succ n ih =>
    refine ⟨h, fun r => ?_⟩
    dsimp only
    split
    · exact ih
    · trivial

/-- What is left of a program makes no other calls. -/
theorem Only.leads {P : ι → Prop} {p q : Prog ρ α} {calls : List ((c : ι) × ρ c)} (h : Only P p)
    (hl : Leads p calls q) : Only P q := by
  induction hl with
  | done => exact h
  | call _ ih => exact ih (h.2 _)

/-- The last call of a program comes after all those of the program before it, which does not make
it. -/
theorem Only.leads_bind {P : ι → Prop} {p : Prog ρ α} {f : α → Prog ρ γ}
    {calls : List ((c : ι) × ρ c)} {c : ι} {k : ρ c → Prog ρ γ} (h : Only P p) (hc : ¬ P c)
    (hl : Leads (p >>= f) calls (.call c k)) :
    ∃ first rest a, calls = first ++ rest ∧ Leads p first (.ret a) ∧
      Leads (f a) rest (.call c k) := by
  refine (Prog.leads_bind hl).resolve_left ?_
  rintro ⟨p', he, hp, hne⟩
  cases p' with
  | ret a => exact hne a rfl
  | call c' k' =>
    rw [call_bind] at he
    cases he
    exact hc (h.leads hp).1

end Prog

/-! ## Own calls -/

section threads

variable {τ σ κ β ε : Type} [DecidableEq τ] {S : Shared ρ τ σ κ β ε}
  {C : Threaded ρ τ σ → Act τ κ β → Prop} {s : Threaded ρ τ σ} {n : Nat}
  {es : List (Happened ρ τ ε)}

/-- The calls of the thread `t`, with their replies. -/
def callsOf (t : τ) : List (Happened ρ τ ε) → List ((c : ι) × ρ c)
  | [] => []
  | .called t' c r :: es => if t' = t then ⟨c, r⟩ :: callsOf t es else callsOf t es
  | .ambient _ :: es => callsOf t es

theorem callsOf_append (t : τ) (es fs : List (Happened ρ τ ε)) :
    callsOf t (es ++ fs) = callsOf t es ++ callsOf t fs := by
  induction es with
  | nil => rfl
  | cons e es ih =>
    cases e with
    | called t' c r =>
      rw [List.cons_append, callsOf, callsOf, ih]
      split <;> rfl
    | ambient e => exact ih

theorem callsOf_ambient (t : τ) (gs : List ε) :
    callsOf t (gs.map fun e => (.ambient e : Happened ρ τ ε)) = [] := by
  induction gs with
  | nil => rfl
  | cons g gs ih => exact ih

/-- A call of the thread stands in the log. -/
theorem split_callsOf {t : τ} {first rest : List ((c : ι) × ρ c)} {c : ι} {r : ρ c}
    (h : callsOf t es = first ++ ⟨c, r⟩ :: rest) :
    ∃ pre post, es = pre ++ .called t c r :: post ∧ callsOf t pre = first ∧
      callsOf t post = rest := by
  induction es generalizing first with
  | nil => simp [callsOf] at h
  | cons e es ih =>
    cases e with
    | called t' c' r' =>
      rw [callsOf] at h
      split at h
      · rename_i ht
        subst ht
        cases first with
        | nil =>
          obtain ⟨he, hrest⟩ := List.cons.inj h
          cases he
          exact ⟨[], es, rfl, rfl, hrest⟩
        | cons x first =>
          obtain ⟨rfl, htail⟩ := List.cons.inj h
          obtain ⟨pre, post, rfl, hpre, hpost⟩ := ih htail
          exact ⟨_ :: pre, post, rfl, by rw [callsOf, if_pos rfl, hpre], hpost⟩
      · rename_i ht
        obtain ⟨pre, post, rfl, hpre, hpost⟩ := ih h
        exact ⟨_ :: pre, post, rfl, by rw [callsOf, if_neg ht, hpre], hpost⟩
    | ambient e =>
      obtain ⟨pre, post, rfl, hpre, hpost⟩ := ih h
      exact ⟨.ambient e :: pre, post, rfl, hpre, hpost⟩

/-! ## The current run -/

theorem Threaded.goto_self (s : Threaded ρ τ σ) (t : τ) (p : Prog ρ Unit) :
    (s.goto t p).programs t = p :=
  Function.update_self ..

theorem Threaded.goto_ne (s : Threaded ρ τ σ) {t t' : τ} (p : Prog ρ Unit) (h : t ≠ t') :
    (s.goto t' p).programs t = s.programs t :=
  Function.update_of_ne h ..

/-- The last calls of the thread lead from its program to what is left of it, or it has none. -/
def Current (S : Shared ρ τ σ κ β ε) (t : τ) (es : List (Happened ρ τ ε)) (p : Prog ρ Unit) :
    Prop :=
  p = .ret () ∨ ∃ earlier current, es = earlier ++ current ∧
    Prog.Leads (S.body t) (callsOf t current) p

/-- The thread makes no call. -/
theorem Current.others {t : τ} {fs : List (Happened ρ τ ε)} {p : Prog ρ Unit}
    (h : Current S t es p) (hfs : callsOf t fs = []) : Current S t (es ++ fs) p := by
  rcases h with h | ⟨earlier, current, rfl, h⟩
  · exact .inl h
  · refine .inr ⟨earlier, current ++ fs, by rw [List.append_assoc], ?_⟩
    rwa [callsOf_append, hfs, List.append_nil]

theorem current_run (hr : (threads S).Run C n es s) (t : τ) : Current S t es (s.programs t) := by
  refine hr.inv (I := fun es s => Current S t es (s.programs t)) ?_ ?_
  · intro s hs
    exact .inl (hs.2 t)
  intro n es s a s' fs _ h _ hs
  cases moves hs with
  | begins t' =>
    rw [List.append_nil]
    by_cases ht : t = t'
    · subst ht
      refine .inr ⟨es, [], (List.append_nil _).symm, ?_⟩
      rw [Threaded.goto_self]
      exact .done _
    · rwa [Threaded.goto_ne _ _ ht]
  | stops t' =>
    rw [List.append_nil]
    by_cases ht : t = t'
    · subst ht
      exact .inl (Threaded.goto_self ..)
    · rwa [Threaded.goto_ne _ _ ht]
  | happens b x gs _ => exact h.others (callsOf_ambient t gs)
  | calls t' choice c k r x hk _ =>
    by_cases ht : t = t'
    · subst ht
      rw [hk] at h
      rw [Threaded.goto_self]
      obtain ⟨earlier, current, rfl, hlead⟩ := h.resolve_left (by simp)
      refine .inr ⟨earlier, current ++ [.called t c r], by rw [List.append_assoc], ?_⟩
      rw [callsOf_append, callsOf, if_pos rfl]
      exact hlead.snoc r
    · rw [Threaded.goto_ne _ _ ht]
      exact h.others (by rw [callsOf, if_neg (Ne.symm ht), callsOf])

/-- A call of the log: the calls of its thread before it lead from the thread's program to it, and
the shared state answers it. -/
theorem called_split (hr : (threads S).Run C n es s) {pre post : List (Happened ρ τ ε)} {t : τ}
    {c : ι} {r : ρ c} (he : es = pre ++ .called t c r :: post) :
    ∃ n₁ s₁ choice x earlier current k, (threads S).Run C n₁ pre s₁ ∧
      S.perform s₁.shared t c choice = some (r, x) ∧ pre = earlier ++ current ∧
      Prog.Leads (S.body t) (callsOf t current) (.call c k) := by
  obtain ⟨n₁, es₁, s₁, a, s₂, fs, fs₁, fs₂, hr₁, -, hs, hfs, rfl⟩ := hr.split he
  have hcur := current_run hr₁ t
  cases moves hs with
  | begins | stops => simp at hfs
  | happens b x gs _ =>
    have hm : Happened.called t c r ∈ gs.map .ambient := by
      rw [hfs]
      simp
    simp at hm
  | calls t' choice c' k r' x hk hp =>
    obtain ⟨rfl, hone⟩ := (List.append_eq_singleton_iff.mp hfs.symm).resolve_right (by simp)
    cases (List.cons.inj hone).1
    rw [hk] at hcur
    obtain ⟨earlier, current, rfl, hlead⟩ := hcur.resolve_left (by simp)
    rw [List.append_nil]
    exact ⟨n₁, s₁, choice, x, earlier, current, k, hr₁, hp, rfl, hlead⟩

end threads

end Lib
end AutoSRE
