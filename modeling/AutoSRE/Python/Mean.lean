import AutoSRE.Python.Float

/-!
# Means and rounding

`fsum` is `sum` of floats, which carries the rounding error of each addition along. `mean` is
`sum(xs) / len(xs)`, and `roundTo` is `round(x, digits)`.
-/

namespace AutoSRE
namespace Py
namespace PyFloat

/-- `abs(x)`. -/
def abs : PyFloat → PyFloat
  | .nan => .nan
  | .inf _ => .inf false
  | .finite q => .finite (if q < 0 then -q else q)

/-- `a * b`. -/
def mul : PyFloat → PyFloat → PyFloat
  | .nan, _ | _, .nan => .nan
  | .inf a, .inf b => .inf (a != b)
  | .inf a, .finite q | .finite q, .inf a => if q = 0 then .nan else .inf (a != decide (q < 0))
  | .finite p, .finite q => ofRat (p * q)

/-- `a / b`, for a divisor that is not zero. -/
def div : PyFloat → PyFloat → PyFloat
  | .nan, _ | _, .nan => .nan
  | .inf _, .inf _ => .nan
  | .inf a, .finite q => .inf (a != decide (q < 0))
  | .finite _, .inf _ => .zero
  | .finite p, .finite q => ofRat (p / q)

/-- The sum so far, and the error of the additions so far. -/
def addCompensated (total : PyFloat × PyFloat) (x : PyFloat) : PyFloat × PyFloat :=
  let t := total.1.add x
  if le x.abs total.1.abs then (t, total.2.add ((total.1.sub t).add x))
  else (t, total.2.add ((x.sub t).add total.1))

/-- `sum(xs)`. -/
def fsum (xs : List PyFloat) : PyFloat :=
  match xs.foldl addCompensated (.zero, .zero) with
  | (hi, .finite lo) => if lo = 0 then hi else hi.add (.finite lo)
  | (hi, _) => hi

/-- `sum(xs) / len(xs) if xs else 0.0`. -/
def mean (xs : List PyFloat) : PyFloat :=
  if xs.isEmpty then .zero else (fsum xs).div (ofRat xs.length)

/-- `round(x, digits)`. -/
def roundTo (digits : Nat) : PyFloat → PyFloat
  | .finite q =>
    let scale := Nat.pow 10 digits
    let m : Rat := mkRat (roundHalfEven (q.num.natAbs * scale) q.den) scale
    ofRat (if q.num < 0 then -m else m)
  | x => x

example : roundTo 2 (mean [.finite 1, .finite 2, .finite 2]) = ofRat (mkRat 167 100) := by
  decide +kernel

end PyFloat
end Py
end AutoSRE
