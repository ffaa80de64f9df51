/-!
# Python's `str` and `int`

The string operations the agent uses, over the code points of a string: `str.strip`, `int(text)`
and `str()` of an integer. `decimalValue` follows Unicode 16 (the version of Python 3.14), so
`int` accepts the digits of every script; a literal of more than 4300 digits is rejected, as
`int` does by default.
-/

namespace AutoSRE
namespace Py

/-- The code points that `str.strip` and `int` treat as white space. -/
def isSpace (c : Char) : Bool :=
  let n := c.toNat
  (9 ≤ n && n ≤ 13) || (28 ≤ n && n ≤ 32) || n == 0x85 || n == 0xa0 || n == 0x1680 ||
    (0x2000 ≤ n && n ≤ 0x200a) || n == 0x2028 || n == 0x2029 || n == 0x202f || n == 0x205f ||
    n == 0x3000

/-- `str.strip`, on characters. -/
def stripChars (cs : List Char) : List Char :=
  ((cs.dropWhile isSpace).reverse.dropWhile isSpace).reverse

/-- `str.strip`. -/
def strip (s : String) : String := String.ofList (stripChars s.toList)

/-- The zeros of the decimal digits (general category `Nd`): each starts a run of ten. -/
def digitZeros : List Nat :=
  [0x30, 0x660, 0x6f0, 0x7c0, 0x966, 0x9e6, 0xa66, 0xae6, 0xb66, 0xbe6, 0xc66, 0xce6, 0xd66,
    0xde6, 0xe50, 0xed0, 0xf20, 0x1040, 0x1090, 0x17e0, 0x1810, 0x1946, 0x19d0, 0x1a80, 0x1a90,
    0x1b50, 0x1bb0, 0x1c40, 0x1c50, 0xa620, 0xa8d0, 0xa900, 0xa9d0, 0xa9f0, 0xaa50, 0xabf0,
    0xff10, 0x104a0, 0x10d30, 0x10d40, 0x11066, 0x110f0, 0x11136, 0x111d0, 0x112f0, 0x11450,
    0x114d0, 0x11650, 0x116c0, 0x116d0, 0x116da, 0x11730, 0x118e0, 0x11950, 0x11bf0, 0x11c50,
    0x11d50, 0x11da0, 0x11f50, 0x16130, 0x16a60, 0x16ac0, 0x16b50, 0x16d70, 0x1ccf0, 0x1d7ce,
    0x1d7d8, 0x1d7e2, 0x1d7ec, 0x1d7f6, 0x1e140, 0x1e2f0, 0x1e4f0, 0x1e5f1, 0x1e950, 0x1fbf0]

/-- The value of a decimal digit. -/
def decimalValue (c : Char) : Option Nat :=
  digitZeros.findSome? fun z =>
    if z ≤ c.toNat ∧ c.toNat < z + 10 then some (c.toNat - z) else none

/-- The value and the number of digits of a literal: digits, with single underscores between
them. `afterDigit` says whether the last character was a digit. -/
def parseDigits (acc count : Nat) (afterDigit : Bool) : List Char → Option (Nat × Nat)
  | [] => if afterDigit then some (acc, count) else none
  | c :: cs =>
    if c = '_' then
      if afterDigit then parseDigits acc count false cs else none
    else
      match decimalValue c with
      | some d => parseDigits (acc * 10 + d) (count + 1) true cs
      | none => none

/-- The sign of a literal, and the rest. -/
def takeSign : List Char → Bool × List Char
  | '-' :: cs => (true, cs)
  | '+' :: cs => (false, cs)
  | cs => (false, cs)

/-- `sys.get_int_max_str_digits()`. -/
def intMaxStrDigits : Nat := 4300

/-- `int(text)` and `int(text, 10)`; `none` is `ValueError`. -/
def intOfText (s : String) : Option Int :=
  let (neg, cs) := takeSign (stripChars s.toList)
  match parseDigits 0 0 false cs with
  | some (n, count) =>
    if intMaxStrDigits < count then none else some (if neg then -(n : Int) else n)
  | none => none

example : intOfText " 2 " = some 2 ∧ intOfText "1_0" = some 10 ∧ intOfText "high" = none := by
  decide

end Py
end AutoSRE
