/-!
# Contexts with cancellation

A context is made from the background by `withCancel`, which gives it a cancel function, and by
`withValue`. Cancelling a context cancels those that are made from it.

* `Context.cancels`: the cancel functions of a context and of those it is made from.
* `Context.cause`: who has cancelled a context.
* `Transparent`: a function on contexts that neither cancels nor shields (`Transparent.cause`).
-/

namespace AutoSRE
namespace Lib

/-- A context; `κ` are the cancel functions. -/
inductive Context (κ : Type) where
  | background
  | withCancel (parent : Context κ) (cancel : κ)
  | withValue (parent : Context κ)

namespace Context

variable {κ γ : Type}

/-- The cancel functions that cancel a context, those of the ancestors first. -/
def cancels : Context κ → List κ
  | background => []
  | withCancel parent cancel => parent.cancels ++ [cancel]
  | withValue parent => parent.cancels

/-- Who has cancelled a context, when `called` is who has called a cancel function first. -/
def cause (called : κ → Option γ) (c : Context κ) : Option γ := c.cancels.findSome? called

@[simp] theorem cause_withCancel_background (called : κ → Option γ) (cancel : κ) :
    (withCancel background cancel).cause called = called cancel := by
  simp [cause, cancels]

/-- The context of a function is cancelled with the given one, and only with it. -/
def Transparent (f : Context κ → Context κ) : Prop := ∀ c, (f c).cancels = c.cancels

theorem transparent_withValue : Transparent (withValue : Context κ → Context κ) := fun _ => rfl

theorem Transparent.cause {f : Context κ → Context κ} (hf : Transparent f)
    (called : κ → Option γ) (c : Context κ) : (f c).cause called = c.cause called := by
  simp only [Context.cause, hf c]

end Context

end Lib
end AutoSRE
