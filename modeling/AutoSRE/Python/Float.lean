import AutoSRE.Python.Text
import Mathlib.Algebra.Group.Int.Defs
import Mathlib.Algebra.Group.Nat.Defs

/-!
# Python's `float`

A `float` is a NaN, an infinity or a rational (`PyFloat`); `ofRat` rounds an exact value to
binary64, half to even, and overflows to an infinity. Comparisons are exact and false on a NaN, as
IEEE 754 has them. `floatOfText` is `float(text)`. The sign of a zero is left out: no comparison
reads it.
-/

namespace AutoSRE
namespace Py

/-- A Python `float`. -/
inductive PyFloat where
  | nan
  | inf (neg : Bool)
  | finite (q : Rat)
  deriving DecidableEq, Repr

namespace PyFloat

/-- Round a nonnegative rational to an integer, half to even. -/
def roundHalfEven (n d : Nat) : Nat :=
  let q := n / d
  let r := n % d
  if 2 * r < d then q else if d < 2 * r then q + 1 else if q % 2 = 0 then q else q + 1

/-- The binary exponent of `n / d`: the largest `e` with `2 ^ e ≤ n / d` (`n`, `d` positive). -/
def exponent (n d : Nat) : Int :=
  let e : Int := (Nat.log2 n : Int) - Nat.log2 d
  if d * 2 ^ e.toNat ≤ n * 2 ^ (-e).toNat then e else e - 1

/-- Round `n / d` to binary64: the magnitude, or `none` on overflow. -/
def roundMagnitude (n d : Nat) : Option Rat :=
  if n = 0 then some 0 else
    -- The unit in the last place is `2 ^ E`: 53 bits, down to the smallest subnormal.
    let E := max (exponent n d - 52) (-1074)
    let m := roundHalfEven (n * 2 ^ (-E).toNat) (d * 2 ^ E.toNat)
    let q := mkRat (m * 2 ^ E.toNat) (2 ^ (-E).toNat)
    if mkRat (2 ^ 1024) 1 ≤ q then none else some q

/-- The `float` nearest to an exact value. -/
def ofRat (q : Rat) : PyFloat :=
  match roundMagnitude q.num.natAbs q.den with
  | some r => .finite (if q.num < 0 then -r else r)
  | none => .inf (decide (q.num < 0))

/-- `a <= b`. -/
def le : PyFloat → PyFloat → Bool
  | .nan, _ | _, .nan => false
  | .inf true, _ | _, .inf false => true
  | .inf false, _ | _, .inf true => false
  | .finite p, .finite q => decide (p ≤ q)

/-- `a < b`. -/
def lt : PyFloat → PyFloat → Bool
  | .nan, _ | _, .nan => false
  | .inf false, _ | _, .inf true => false
  | .inf true, _ | _, .inf false => true
  | .finite p, .finite q => decide (p < q)

/-- `a - b`. -/
def sub : PyFloat → PyFloat → PyFloat
  | .nan, _ | _, .nan => .nan
  | .inf a, .inf b => if a = b then .nan else .inf a
  | .inf a, .finite _ => .inf a
  | .finite _, .inf b => .inf (!b)
  | .finite p, .finite q => ofRat (p - q)

/-- `a + b`. -/
def add : PyFloat → PyFloat → PyFloat
  | .nan, _ | _, .nan => .nan
  | .inf a, .inf b => if a = b then .inf a else .nan
  | .inf a, .finite _ | .finite _, .inf a => .inf a
  | .finite p, .finite q => ofRat (p + q)

/-- `max(a, b)`. -/
def max (a b : PyFloat) : PyFloat := if lt a b then b else a

/-- `round(x, 3)`. -/
def round3 : PyFloat → PyFloat
  | .finite q =>
    let m : Rat := mkRat (roundHalfEven (q.num.natAbs * 1000) q.den) 1000
    ofRat (if q.num < 0 then -m else m)
  | x => x

/-- `bool(x)`. -/
def truthy : PyFloat → Bool
  | .finite q => decide (q ≠ 0)
  | _ => true

/-- `0.0`. -/
def zero : PyFloat := .finite 0

/-! ## `repr` -/

/-- The number of decimal digits. -/
def digitCount (n : Nat) : Int := (Nat.toDigits 10 n).length

/-- The decimal exponent of `n / d`: the largest `e` with `10 ^ e ≤ n / d` (`n`, `d` positive). -/
def exponent10 (n d : Nat) : Int :=
  let e := digitCount n - digitCount d
  if d * 10 ^ e.toNat ≤ n * 10 ^ (-e).toNat then e else e - 1

/-- The fewest digits, from `k` on, whose decimal rounds to the float `n / d`: an integer and the
exponent of its last digit. -/
def shortestFrom (n d : Nat) : Nat → Nat → Nat × Int
  | 0, k => (0, k)
  | fuel + 1, k =>
    let e := exponent10 n d - k + 1
    let m := roundHalfEven (n * 10 ^ (-e).toNat) (d * 10 ^ e.toNat)
    if fuel = 0 ∨ roundMagnitude (m * 10 ^ e.toNat) (10 ^ (-e).toNat) = some (mkRat n d) then
      (m, e)
    else shortestFrom n d fuel (k + 1)

/-- A decimal `0.ds * 10 ^ p` in the format of `repr`. -/
def formatDecimal (ds : List Char) (p : Int) : List Char :=
  if -4 ≤ p - 1 ∧ p - 1 < 16 then
    if p ≤ 0 then ['0', '.'] ++ List.replicate (-p).toNat '0' ++ ds
    else if ds.length ≤ p then ds ++ List.replicate (p.toNat - ds.length) '0' ++ ['.', '0']
    else ds.take p.toNat ++ ['.'] ++ ds.drop p.toNat
  else
    let x := p - 1
    let xs := Nat.toDigits 10 x.natAbs
    let frac := if ds.length = 1 then [] else '.' :: ds.drop 1
    ds.take 1 ++ frac ++ ['e', if x < 0 then '-' else '+'] ++
      (if xs.length = 1 then '0' :: xs else xs)

/-- `repr(x)`. -/
def repr : PyFloat → String
  | .nan => "nan"
  | .inf neg => if neg then "-inf" else "inf"
  | .finite q =>
    if q = 0 then "0.0"
    else
      let (m, e) := shortestFrom q.num.natAbs q.den 17 1
      let ds := Nat.toDigits 10 m
      let sig := (ds.reverse.dropWhile (· == '0')).reverse
      String.ofList ((if q.num < 0 then ['-'] else []) ++ formatDecimal sig (ds.length + e))

/-! ## `float(text)` -/

/-- Lower case of ASCII letters. -/
def lowerAscii (cs : List Char) : List Char := cs.map Char.toLower

/-- A run of digits and underscores: its characters, and the rest. -/
def takeDigits (cs : List Char) : List Char × List Char :=
  cs.span fun c => c == '_' || (decimalValue c).isSome

/-- A digit part: its value and its length; the empty part is `0`. -/
def digitPart (cs : List Char) : Option (Nat × Nat) :=
  if cs.isEmpty then some (0, 0) else parseDigits 0 0 false cs

/-- The exponent of a literal: absent, or `e`, a sign and digits. -/
def exponentPart : List Char → Option Int
  | [] => some 0
  | c :: cs =>
    if c = 'e' ∨ c = 'E' then
      let (neg, ds) := takeSign cs
      (parseDigits 0 0 false ds).map fun r => if neg then -(r.1 : Int) else r.1
    else none

/-- The exact value of a decimal literal without its sign. -/
def decimalLiteral (cs : List Char) : Option Rat :=
  let (whole, rest) := takeDigits cs
  let (frac, rest) :=
    match rest with
    | '.' :: rest => takeDigits rest
    | rest => ([], rest)
  if whole.isEmpty && frac.isEmpty then none else
    match digitPart whole, digitPart frac, exponentPart rest with
    | some (w, _), some (f, k), some e =>
      let m := w * 10 ^ k + f
      let x := e - k
      some (mkRat (m * 10 ^ x.toNat) (10 ^ (-x).toNat))
    | _, _, _ => none

end PyFloat

open PyFloat in
/-- `float(text)`; `none` is `ValueError`. -/
def floatOfText (s : String) : Option PyFloat :=
  let (neg, cs) := takeSign (stripChars s.toList)
  let word := String.ofList (lowerAscii cs)
  if word = "inf" ∨ word = "infinity" then some (.inf neg)
  else if word = "nan" then some .nan
  else (decimalLiteral cs).map fun q => ofRat (if neg then -q else q)

example : floatOfText " 0.75 " = some (.finite (mkRat 3 4)) ∧
    floatOfText "-Inf" = some (.inf true) ∧ floatOfText "1e400" = some (.inf false) ∧
    floatOfText "abc" = none := by decide +kernel

example : (PyFloat.ofRat (mkRat 1 10)).repr = "0.1" ∧ (PyFloat.ofRat 1200).repr = "1200.0" ∧
    (PyFloat.ofRat (mkRat (-3) 200000)).repr = "-1.5e-05" := by decide +kernel

end Py
end AutoSRE
