/-!
# Computations that log events and may throw

`Traced ε ω α` is a computation that logs events of type `ω` and ends with a value of type `α` or
an exception of type `ε`; what it logged before an exception stays. It is the monad of an
`async def` whose awaits are choices of the environment: an `await` is an event followed by a
case distinction on how the awaited call ends.

`Sat x Q` states what a computation logs and how it ends; `Sat.bind` is the rule of a sequence.
`bind_of_ok` and `bind_of_error` are a sequence by the end of its first part.
-/

namespace AutoSRE
namespace Lib

/-- What a computation logged, and its value or exception. -/
structure Traced (ε ω α : Type) where
  log : List ω
  out : Except ε α

namespace Traced

variable {ε ω α β : Type}

instance : Monad (Traced ε ω) where
  pure a := ⟨[], .ok a⟩
  bind x f :=
    match x.out with
    | .ok a => ⟨x.log ++ (f a).log, (f a).out⟩
    | .error e => ⟨x.log, .error e⟩

/-- Log one event. -/
def emit (w : ω) : Traced ε ω Unit := ⟨[w], .ok ()⟩

/-- Throw an exception. -/
def raise (e : ε) : Traced ε ω α := ⟨[], .error e⟩

/-- A computation that logs nothing. -/
def lift (x : Except ε α) : Traced ε ω α := ⟨[], x⟩

@[simp] theorem pure_log (a : α) : (pure a : Traced ε ω α).log = [] := rfl

@[simp] theorem pure_out (a : α) : (pure a : Traced ε ω α).out = .ok a := rfl

@[simp] theorem raise_log (e : ε) : (raise e : Traced ε ω α).log = [] := rfl

@[simp] theorem raise_out (e : ε) : (raise e : Traced ε ω α).out = .error e := rfl

@[simp] theorem emit_log (w : ω) : (emit w : Traced ε ω Unit).log = [w] := rfl

@[simp] theorem emit_out (w : ω) : (emit w : Traced ε ω Unit).out = .ok () := rfl

@[simp] theorem lift_log (x : Except ε α) : (lift x : Traced ε ω α).log = [] := rfl

@[simp] theorem lift_out (x : Except ε α) : (lift x : Traced ε ω α).out = x := rfl

@[simp] theorem pure_bind (a : α) (f : α → Traced ε ω β) : (pure a >>= f) = f a := rfl

@[simp] theorem raise_bind (e : ε) (f : α → Traced ε ω β) :
    (raise e >>= f : Traced ε ω β) = raise e := rfl

@[simp] theorem emit_bind (w : ω) (f : Unit → Traced ε ω β) :
    (emit w >>= f) = ⟨w :: (f ()).log, (f ()).out⟩ := rfl

@[simp] theorem lift_ok_bind (a : α) (f : α → Traced ε ω β) : (lift (.ok a) >>= f) = f a := rfl

@[simp] theorem lift_error_bind (e : ε) (f : α → Traced ε ω β) :
    (lift (.error e) >>= f : Traced ε ω β) = raise e := rfl

theorem bind_of_ok {x : Traced ε ω α} {a : α} (h : x.out = .ok a) (f : α → Traced ε ω β) :
    (x >>= f) = ⟨x.log ++ (f a).log, (f a).out⟩ := by
  show (match x.out with | .ok a => _ | .error e => _) = _
  rw [h]

theorem bind_of_error {x : Traced ε ω α} {e : ε} (h : x.out = .error e) (f : α → Traced ε ω β) :
    (x >>= f) = ⟨x.log, .error e⟩ := by
  show (match x.out with | .ok a => _ | .error e => _) = _
  rw [h]

/-! ## Conditions on the log and the end of a computation -/

/-- `Q` holds of the log and the end of `x`. -/
def Sat (x : Traced ε ω α) (Q : List ω → Except ε α → Prop) : Prop := Q x.log x.out

variable {x : Traced ε ω α} {P Q : List ω → Except ε α → Prop}

theorem Sat.mono (hx : x.Sat P) (h : ∀ w o, P w o → Q w o) : x.Sat Q := h _ _ hx

theorem Sat.pure {a : α} (h : Q [] (.ok a)) : (Pure.pure a : Traced ε ω α).Sat Q := h

theorem Sat.raise {e : ε} (h : Q [] (.error e)) : (Traced.raise e : Traced ε ω α).Sat Q := h

theorem Sat.emit {w : ω} {Q : List ω → Except ε Unit → Prop} (h : Q [w] (.ok ())) :
    (Traced.emit w : Traced ε ω Unit).Sat Q := h

/-- The rule of a sequence. -/
theorem Sat.bind {f : α → Traced ε ω β} {R : List ω → Except ε β → Prop} (hx : x.Sat P)
    (hok : ∀ w a, P w (.ok a) → (f a).Sat fun w' o => R (w ++ w') o)
    (herr : ∀ w e, P w (.error e) → R w (.error e)) : (x >>= f).Sat R := by
  unfold Sat at *
  cases ho : x.out with
  | ok a =>
    rw [bind_of_ok ho]
    exact hok _ _ (ho ▸ hx)
  | error e =>
    rw [bind_of_error ho]
    exact herr _ _ (ho ▸ hx)

end Traced

end Lib
end AutoSRE
