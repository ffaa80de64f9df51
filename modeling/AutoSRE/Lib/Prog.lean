import AutoSRE.Lib.Sys
import Mathlib.Data.Multiset.AddSub
import Mathlib.Data.Multiset.Replicate

/-!
# Programs of calls, and the threads that run them

- **Programs** (`Prog`). A program makes a call, goes on with its reply, and returns a value. `ρ c`
  are the replies to the call `c`.
- **A program by itself** (`Prog.eval`): its calls are answered by a function of a state.
- **All runs of a program** (`Prog.Runs`): its calls are answered in any way. A program by itself
  makes one of its runs (`eval_runs`).
- **Threads** (`threads`). Each thread runs its program again and again; the calls of the threads
  interleave, on a state that they share, with what else happens to it. A thread can be stopped
  anywhere. An invariant of the shared state and the log needs a proof for each call and for what
  else happens (`shared_inv`).
- **Credits** (`Account`). A call earns or spends credits, depending on its reply. A program is
  solvent (`Account.Solvent`) if it spends only what it has or has earned, whatever the replies;
  the proof follows the program (`Solvent.bind` is the frame rule). Threads with solvent programs
  spend no more than they earn together (`spent_le_earned`).
-/

namespace AutoSRE
namespace Lib

/-- A program that makes calls and goes on with their replies. -/
inductive Prog {ι : Type} (ρ : ι → Type) (α : Type) : Type where
  | ret (a : α)
  | call (c : ι) (k : ρ c → Prog ρ α)

variable {ι : Type} {ρ : ι → Type} {α γ : Type}

namespace Prog

def bind (p : Prog ρ α) (f : α → Prog ρ γ) : Prog ρ γ :=
  match p with
  | .ret a => f a
  | .call c k => .call c fun r => (k r).bind f

instance : Monad (Prog ρ) where
  pure := .ret
  bind := bind

/-- The program of one call. -/
def perform (c : ι) : Prog ρ (ρ c) := .call c .ret

theorem call_bind (c : ι) (k : ρ c → Prog ρ α) (f : α → Prog ρ γ) :
    (Prog.call c k >>= f) = .call c fun r => k r >>= f := rfl

/-! ## A program by itself -/

/-- What a program by itself ends with. -/
structure Outcome (ρ : ι → Type) (σ α : Type) where
  result : α
  state : σ
  /-- The calls that were made, with their replies. -/
  calls : List ((c : ι) × ρ c)

/-- Run a program whose calls are answered by `h`. -/
def eval {σ : Type} (h : (c : ι) → σ → ρ c × σ) : Prog ρ α → σ → Outcome ρ σ α
  | .ret a, s => ⟨a, s, []⟩
  | .call c k, s =>
    let o := eval h (k (h c s).1) (h c s).2
    ⟨o.result, o.state, ⟨c, (h c s).1⟩ :: o.calls⟩

section eval

variable {σ : Type} (h : (c : ι) → σ → ρ c × σ)

theorem eval_call (c : ι) (k : ρ c → Prog ρ α) (s : σ) :
    eval h (.call c k) s =
      ⟨(eval h (k (h c s).1) (h c s).2).result, (eval h (k (h c s).1) (h c s).2).state,
        ⟨c, (h c s).1⟩ :: (eval h (k (h c s).1) (h c s).2).calls⟩ := rfl

theorem eval_bind (p : Prog ρ α) (f : α → Prog ρ γ) (s : σ) :
    eval h (p >>= f) s =
      let o := eval h p s
      let o' := eval h (f o.result) o.state
      ⟨o'.result, o'.state, o.calls ++ o'.calls⟩ := by
  induction p generalizing s with
  | ret a => rfl
  | call c k ih =>
    rw [call_bind, eval_call, ih, eval_call]
    rfl

end eval

/-! ## All runs of a program -/

/-- With some replies the program makes the calls `calls` and ends with `b`. -/
def Runs : Prog ρ α → List ((c : ι) × ρ c) → α → Prop
  | .ret a, calls, b => calls = [] ∧ a = b
  | .call c k, calls, b => ∃ r rest, calls = ⟨c, r⟩ :: rest ∧ Runs (k r) rest b

theorem runs_bind {p : Prog ρ α} {f : α → Prog ρ γ} {calls : List ((c : ι) × ρ c)} {b : γ} :
    Runs (p >>= f) calls b ↔
      ∃ first rest a, calls = first ++ rest ∧ Runs p first a ∧ Runs (f a) rest b := by
  induction p generalizing calls with
  | ret a =>
    constructor
    · intro h
      exact ⟨[], calls, a, rfl, ⟨rfl, rfl⟩, h⟩
    · rintro ⟨first, rest, a', rfl, ⟨rfl, rfl⟩, h⟩
      exact h
  | call c k ih =>
    constructor
    · rintro ⟨r, rest, rfl, h⟩
      obtain ⟨first, rest', a, rfl, hp, hf⟩ := (ih r).mp h
      exact ⟨⟨c, r⟩ :: first, rest', a, rfl, ⟨r, first, rfl, hp⟩, hf⟩
    · rintro ⟨first, rest, a, rfl, ⟨r, rest', rfl, hp⟩, hf⟩
      exact ⟨r, rest' ++ rest, rfl, (ih r).mpr ⟨rest', rest, a, rfl, hp, hf⟩⟩

/-- A program by itself makes one of its runs. -/
theorem eval_runs {σ : Type} (h : (c : ι) → σ → ρ c × σ) (p : Prog ρ α) (s : σ) :
    Runs p (eval h p s).calls (eval h p s).result := by
  induction p generalizing s with
  | ret a => exact ⟨rfl, rfl⟩
  | call c k ih => exact ⟨(h c s).1, _, rfl, ih _ _⟩

end Prog

/-! ## Threads -/

/-- What threads share. -/
structure Shared (ρ : ι → Type) (τ σ κ β ε : Type) where
  init : σ → Prop
  /-- A call of a thread, with what the environment chooses for it; `none` when the thread waits. -/
  perform : σ → τ → (c : ι) → κ → Option (ρ c × σ)
  /-- What else happens. -/
  ambient : σ → β → Option (σ × List ε)
  /-- The program that a thread runs again and again. -/
  body : τ → Prog ρ Unit

/-- The state of the threads: what they share, and what is left of each one's program. -/
structure Threaded (ρ : ι → Type) (τ σ : Type) where
  shared : σ
  programs : τ → Prog ρ Unit

inductive Act (τ κ β : Type) where
  /-- A thread whose program is over begins it again. -/
  | begin (t : τ)
  | call (t : τ) (choice : κ)
  /-- A thread is stopped. -/
  | stop (t : τ)
  | ambient (b : β)

inductive Happened (ρ : ι → Type) (τ ε : Type) where
  | called (t : τ) (c : ι) (r : ρ c)
  | ambient (e : ε)

section threads

variable {τ σ κ β ε : Type} [DecidableEq τ] (S : Shared ρ τ σ κ β ε)

/-- The thread goes on with the program `p`. -/
def Threaded.goto (s : Threaded ρ τ σ) (t : τ) (p : Prog ρ Unit) : Threaded ρ τ σ :=
  { s with programs := Function.update s.programs t p }

def Shared.step (s : Threaded ρ τ σ) :
    Act τ κ β → Option (Threaded ρ τ σ × List (Happened ρ τ ε))
  | .begin t =>
    match s.programs t with
    | .ret _ => some (s.goto t (S.body t), [])
    | .call _ _ => none
  | .call t choice =>
    match s.programs t with
    | .ret _ => none
    | .call c k =>
      (S.perform s.shared t c choice).map fun r =>
        ({ s with shared := r.2 }.goto t (k r.1), [.called t c r.1])
  | .stop t => some (s.goto t (.ret ()), [])
  | .ambient b =>
    (S.ambient s.shared b).map fun r => ({ s with shared := r.1 }, r.2.map .ambient)

/-- The interleavings of the threads. -/
def threads : Sys (Threaded ρ τ σ) (Act τ κ β) (Happened ρ τ ε) where
  init s := S.init s.shared ∧ ∀ t, s.programs t = .ret ()
  step := S.step

/-- What a step of the threads does. -/
inductive Shared.Moves (s : Threaded ρ τ σ) :
    Act τ κ β → Threaded ρ τ σ → List (Happened ρ τ ε) → Prop
  | begins (t : τ) : Moves s (.begin t) (s.goto t (S.body t)) []
  | calls (t : τ) (choice : κ) (c : ι) (k : ρ c → Prog ρ Unit) (r : ρ c) (x : σ) :
      s.programs t = .call c k → S.perform s.shared t c choice = some (r, x) →
      Moves s (.call t choice) ({ s with shared := x }.goto t (k r)) [.called t c r]
  | stops (t : τ) : Moves s (.stop t) (s.goto t (.ret ())) []
  | happens (b : β) (x : σ) (es : List ε) : S.ambient s.shared b = some (x, es) →
      Moves s (.ambient b) { s with shared := x } (es.map .ambient)

variable {S} {C : Threaded ρ τ σ → Act τ κ β → Prop} {s s' : Threaded ρ τ σ} {a : Act τ κ β}
  {fs : List (Happened ρ τ ε)}

theorem moves (h : (threads S).step s a = some (s', fs)) : S.Moves s a s' fs := by
  change S.step s a = some (s', fs) at h
  cases a with
  | begin t =>
    simp only [Shared.step] at h
    split at h
    · cases h
      exact .begins t
    · cases h
  | call t choice =>
    simp only [Shared.step] at h
    split at h
    · cases h
    · rename_i c k hk
      obtain ⟨⟨r, x⟩, hr, he⟩ := Option.map_eq_some_iff.mp h
      cases he
      exact .calls t choice c k r x hk hr
  | stop t =>
    cases h
    exact .stops t
  | ambient b =>
    obtain ⟨⟨x, es⟩, hr, he⟩ := Option.map_eq_some_iff.mp h
    cases he
    exact .happens b x es hr

/-- The invariant rule for what the threads share. -/
theorem shared_inv {I : List (Happened ρ τ ε) → σ → Prop} (hinit : ∀ x, S.init x → I [] x)
    (hcall : ∀ es s t choice c k r x, I es s.shared → C s (.call t choice) →
      s.programs t = .call c k → S.perform s.shared t c choice = some (r, x) →
      I (es ++ [.called t c r]) x)
    (hambient : ∀ es y b x gs, I es y → S.ambient y b = some (x, gs) →
      I (es ++ gs.map .ambient) x)
    {n : Nat} {es : List (Happened ρ τ ε)} (hr : (threads S).Run C n es s) : I es s.shared := by
  refine hr.inv (I := fun es s => I es s.shared) ?_ ?_
  · intro s hs
    exact hinit s.shared hs.1
  intro n es s a s' fs _ hi hc hs
  cases moves hs with
  | begins t | stops t =>
    rw [List.append_nil]
    exact hi
  | calls t choice c k r x hk hr => exact hcall es s t choice c k r x hi hc hk hr
  | happens b x gs hx => exact hambient es s.shared b x gs hi hx

end threads

/-! ## Credits -/

/-- The credits that a call earns and spends. -/
structure Account (ρ : ι → Type) where
  earns : (c : ι) → ρ c → Nat
  spends : (c : ι) → ρ c → Nat

namespace Account

variable (A : Account ρ)

/-- A program with `n` credits spends only what it has. -/
def Solvent : Nat → Prog ρ α → Prop
  | _, .ret _ => True
  | n, .call c k => ∀ r, A.spends c r ≤ n ∧ Solvent (n - A.spends c r + A.earns c r) (k r)

variable {A}

theorem Solvent.mono {p : Prog ρ α} {m n : Nat} (h : A.Solvent m p) (hle : m ≤ n) :
    A.Solvent n p := by
  induction p generalizing m n with
  | ret a => trivial
  | call c k ih =>
    intro r
    obtain ⟨hspends, hk⟩ := h r
    exact ⟨hspends.trans hle, ih r hk (by omega)⟩

/-- The frame rule: the credits that are left to the program `f` do not matter to the one before
it. -/
theorem Solvent.bind {p : Prog ρ α} {f : α → Prog ρ γ} {m n : Nat} (h : A.Solvent m p)
    (hf : ∀ a, A.Solvent n (f a)) : A.Solvent (m + n) (p >>= f) := by
  induction p generalizing m with
  | ret a => exact (hf a).mono (Nat.le_add_left n m)
  | call c k ih =>
    intro r
    obtain ⟨hspends, hk⟩ := h r
    refine ⟨by omega, (ih r hk).mono ?_⟩
    omega

/-- A call that neither earns nor spends. -/
theorem Solvent.free {c : ι} {k : ρ c → Prog ρ α} {n : Nat} (hs : ∀ r, A.spends c r = 0)
    (hk : ∀ r, A.Solvent n (k r)) : A.Solvent n (.call c k) := by
  intro r
  refine ⟨by rw [hs r]; exact Nat.zero_le n, (hk r).mono ?_⟩
  rw [hs r]
  omega

section threads

variable {τ σ κ β ε : Type}

variable (A) in
/-- The credits that the calls of a log have earned. -/
def earned : List (Happened ρ τ ε) → Nat
  | [] => 0
  | .called _ c r :: es => A.earns c r + earned es
  | .ambient _ :: es => earned es

variable (A) in
/-- The credits that the calls of a log have spent. -/
def spent : List (Happened ρ τ ε) → Nat
  | [] => 0
  | .called _ c r :: es => A.spends c r + spent es
  | .ambient _ :: es => spent es

theorem earned_append (es fs : List (Happened ρ τ ε)) :
    A.earned (es ++ fs) = A.earned es + A.earned fs := by
  induction es with
  | nil => exact (Nat.zero_add _).symm
  | cons e es ih => cases e <;> simp only [List.cons_append, earned, ih, Nat.add_assoc]

theorem spent_append (es fs : List (Happened ρ τ ε)) :
    A.spent (es ++ fs) = A.spent es + A.spent fs := by
  induction es with
  | nil => exact (Nat.zero_add _).symm
  | cons e es ih => cases e <;> simp only [List.cons_append, spent, ih, Nat.add_assoc]

theorem earned_called (es : List (Happened ρ τ ε)) (t : τ) (c : ι) (r : ρ c) :
    A.earned (es ++ [.called t c r]) = A.earned es + A.earns c r :=
  earned_append es _

theorem spent_called (es : List (Happened ρ τ ε)) (t : τ) (c : ι) (r : ρ c) :
    A.spent (es ++ [.called t c r]) = A.spent es + A.spends c r :=
  spent_append es _

theorem earned_ambient (es : List (Happened ρ τ ε)) (gs : List ε) :
    A.earned (es ++ gs.map .ambient) = A.earned es := by
  rw [earned_append]
  induction gs with
  | nil => rfl
  | cons g gs ih => exact ih

theorem spent_ambient (es : List (Happened ρ τ ε)) (gs : List ε) :
    A.spent (es ++ gs.map .ambient) = A.spent es := by
  rw [spent_append]
  induction gs with
  | nil => rfl
  | cons g gs ih => exact ih

variable [DecidableEq τ] {S : Shared ρ τ σ κ β ε} {C : Threaded ρ τ σ → Act τ κ β → Prop}

/-- Some credits are in the hands of the threads, each of which can go on with its own. -/
def Balanced (A : Account ρ) (es : List (Happened ρ τ ε)) (s : Threaded ρ τ σ) : Prop :=
  ∃ credits : Multiset τ, A.spent es + credits.card ≤ A.earned es ∧
    ∀ t, A.Solvent (credits.count t) (s.programs t)

/-- A thread goes on with another program, and has the credits for it. -/
theorem solvent_goto {s : Threaded ρ τ σ} {t : τ} {p : Prog ρ Unit} {f : τ → Nat}
    (hp : A.Solvent (f t) p) (hs : ∀ t', t' ≠ t → A.Solvent (f t') (s.programs t')) (t' : τ) :
    A.Solvent (f t') ((s.goto t p).programs t') := by
  by_cases ht : t' = t
  · subst ht
    simpa [Threaded.goto] using hp
  · simpa [Threaded.goto, Function.update_of_ne ht] using hs t' ht

theorem Balanced.step (hbody : ∀ t, A.Solvent 0 (S.body t)) {s s' : Threaded ρ τ σ}
    {a : Act τ κ β} {es fs : List (Happened ρ τ ε)} (hb : A.Balanced es s)
    (h : S.Moves s a s' fs) : A.Balanced (es ++ fs) s' := by
  obtain ⟨credits, hle, hsolvent⟩ := hb
  cases h with
  | begins t =>
    rw [List.append_nil]
    exact ⟨credits, hle, solvent_goto ((hbody t).mono (Nat.zero_le _)) fun t' _ => hsolvent t'⟩
  | stops t =>
    rw [List.append_nil]
    exact ⟨credits, hle, solvent_goto trivial fun t' _ => hsolvent t'⟩
  | happens b x gs _ => exact ⟨credits, by rwa [earned_ambient, spent_ambient], hsolvent⟩
  | calls t choice c k r x hk _ =>
    have ht := hsolvent t
    rw [hk] at ht
    obtain ⟨hspends, hgoes⟩ := ht r
    -- The thread pays with its own credits.
    have hsub : Multiset.replicate (A.spends c r) t ≤ credits :=
      Multiset.le_count_iff_replicate_le.mp hspends
    have hcard := Multiset.card_sub hsub
    have hpaid := Multiset.card_le_card hsub
    rw [Multiset.card_replicate] at hcard hpaid
    refine ⟨credits - Multiset.replicate (A.spends c r) t +
      Multiset.replicate (A.earns c r) t, ?_, solvent_goto ?_ fun t' hne => ?_⟩
    · rw [earned_called, spent_called, Multiset.card_add, Multiset.card_replicate, hcard]
      omega
    · simpa [Multiset.count_sub, Multiset.count_replicate] using hgoes
    · simpa [Multiset.count_sub, Multiset.count_replicate, Ne.symm hne] using hsolvent t'

/-- Threads with solvent programs spend no more than they earn. -/
theorem spent_le_earned (hbody : ∀ t, A.Solvent 0 (S.body t)) {n : Nat}
    {es : List (Happened ρ τ ε)} {s : Threaded ρ τ σ} (hr : (threads S).Run C n es s) :
    A.spent es ≤ A.earned es := by
  have hb : A.Balanced es s := by
    refine hr.inv (I := fun es s => A.Balanced es s) ?_ ?_
    · intro s hs
      refine ⟨0, Nat.zero_le _, fun t => ?_⟩
      rw [hs.2 t]
      trivial
    · intro n es s a s' fs _ hb _ hs
      exact hb.step hbody (moves hs)
  obtain ⟨credits, hle, -⟩ := hb
  omega

end threads

end Account

end Lib
end AutoSRE
