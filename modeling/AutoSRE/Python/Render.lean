import AutoSRE.Python.Value

/-!
# `str`, `repr`, `sorted` and `json.dumps`

The texts that error messages, policy reasons and evidence embed. `sorted` orders strings by code
points. In `reprStr` a character outside ASCII is printable.
-/

namespace AutoSRE
namespace Py

/-- A hexadecimal digit, in lower case. -/
def hexDigit (n : Nat) : Char := "0123456789abcdef".toList.getD n '0'

/-- One character of `repr(text)`, between quotes `q`. -/
def reprChar (q c : Char) : List Char :=
  if c = q ∨ c = '\\' then ['\\', c]
  else if c = '\n' then ['\\', 'n']
  else if c = '\r' then ['\\', 'r']
  else if c = '\t' then ['\\', 't']
  else if c.toNat < 32 ∨ c.toNat = 127 then
    ['\\', 'x', hexDigit (c.toNat / 16), hexDigit (c.toNat % 16)]
  else [c]

/-- `repr(text)`: single quotes, unless the text has one and no double quote. -/
def reprStr (s : String) : String :=
  let cs := s.toList
  let q := if '\'' ∈ cs ∧ '\"' ∉ cs then '\"' else '\''
  String.ofList (q :: cs.flatMap (reprChar q) ++ [q])

/-- `repr` of a list of strings. -/
def reprStrs (ss : List String) : String := "[" ++ ", ".intercalate (ss.map reprStr) ++ "]"

/-- Insert in order. -/
def insertSorted (s : String) : List String → List String
  | [] => [s]
  | t :: ts => if s < t then s :: t :: ts else t :: insertSorted s ts

/-- `sorted` of a list of strings. -/
def sorted (ss : List String) : List String := ss.foldr insertSorted []

/-- `repr(exc)`; Pydantic's is its text. -/
def PyExc.repr : PyExc → String
  | .validationError m => m
  | .timeoutError => "TimeoutError()"
  | e => e.className ++ "(" ++ reprStr e.text ++ ")"

/-! ## JSON values -/

namespace Json

mutual
/-- `repr(v)`. -/
def repr : Json → String
  | .null => "None"
  | .bool b => if b then "True" else "False"
  | .int i => toString i
  | .float x => x.repr
  | .str s => reprStr s
  | .arr xs => "[" ++ ", ".intercalate (reprList xs) ++ "]"
  | .obj d => "\x7b" ++ ", ".intercalate (reprItems d) ++ "\x7d"
/-- `repr` of the elements of a list. -/
def reprList : List Json → List String
  | [] => []
  | x :: xs => repr x :: reprList xs
/-- `repr` of the items of a dictionary. -/
def reprItems : List (String × Json) → List String
  | [] => []
  | (k, v) :: d => (reprStr k ++ ": " ++ repr v) :: reprItems d
end

/-- `str(v)`. -/
def toStr : Json → String
  | .str s => s
  | v => v.repr

/-- `\\u` and four hexadecimal digits. -/
def escapeUnit (n : Nat) : List Char :=
  ['\\', 'u', hexDigit (n / 4096 % 16), hexDigit (n / 256 % 16), hexDigit (n / 16 % 16),
    hexDigit (n % 16)]

/-- One character of a JSON string, in ASCII if `ascii`. -/
def dumpChar (ascii : Bool) (c : Char) : List Char :=
  let n := c.toNat
  if c = '\"' ∨ c = '\\' then ['\\', c]
  else if c = '\n' then ['\\', 'n']
  else if c = '\r' then ['\\', 'r']
  else if c = '\t' then ['\\', 't']
  else if n = 8 then ['\\', 'b']
  else if n = 12 then ['\\', 'f']
  else if n < 32 ∨ (ascii ∧ 126 < n ∧ n < 0x10000) then escapeUnit n
  else if ascii ∧ 126 < n then
    escapeUnit (0xd800 + (n - 0x10000) / 1024) ++ escapeUnit (0xdc00 + (n - 0x10000) % 1024)
  else [c]

/-- A JSON string. -/
def dumpStr (ascii : Bool) (s : String) : String :=
  String.ofList ('\"' :: s.toList.flatMap (dumpChar ascii) ++ ['\"'])

/-- A JSON number. -/
def dumpFloat : PyFloat → String
  | .nan => "NaN"
  | .inf neg => if neg then "-Infinity" else "Infinity"
  | x => x.repr

/-- Insert an item in the order of the keys. -/
def insertItem (p : String × String) : List (String × String) → List (String × String)
  | [] => [p]
  | q :: qs => if p.1 < q.1 then p :: q :: qs else q :: insertItem p qs

mutual
/-- `json.dumps(v, ensure_ascii=ascii, sort_keys=sort)`. -/
def dumps (ascii sort : Bool) : Json → String
  | .null => "null"
  | .bool b => if b then "true" else "false"
  | .int i => toString i
  | .float x => dumpFloat x
  | .str s => dumpStr ascii s
  | .arr xs => "[" ++ ", ".intercalate (dumpList ascii sort xs) ++ "]"
  | .obj d =>
    let items := dumpItems ascii sort d
    let items := if sort then items.foldr insertItem [] else items
    "\x7b" ++ ", ".intercalate (items.map fun p => dumpStr ascii p.1 ++ ": " ++ p.2) ++ "\x7d"
/-- The elements of a JSON array. -/
def dumpList (ascii sort : Bool) : List Json → List String
  | [] => []
  | x :: xs => dumps ascii sort x :: dumpList ascii sort xs
/-- The items of a JSON object. -/
def dumpItems (ascii sort : Bool) : List (String × Json) → List (String × String)
  | [] => []
  | (k, v) :: d => (k, dumps ascii sort v) :: dumpItems ascii sort d
end

end Json

example : reprStrs (sorted ["sre", "rivulet", "it's"]) = "[\"it's\", 'rivulet', 'sre']" := by
  decide +kernel

example : Json.dumps true true (.obj [("b", .arr [.null, .bool true]), ("a", .str "é\n")]) =
    "\x7b\"a\": \"\\u00e9\\n\", \"b\": [null, true]\x7d" := by decide +kernel

end Py
end AutoSRE
