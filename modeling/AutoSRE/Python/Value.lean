import AutoSRE.Python.Float

/-!
# Python values of JSON shape

`Json` is what `json.loads` returns: the values that come from a language model, and the argument
maps and tool outputs that the agent carries around. A `dict` is the list of its items in
insertion order (`PyDict`). The operations are Python's: truth, `==`, `float()`, `list()`,
`hash`, `str` and `repr`, and `json.dumps`. `PyExc` are the exceptions that they and the nodes of
the agent raise.
-/

namespace AutoSRE
namespace Py

/-- A value of JSON shape. -/
inductive Json where
  | null
  | bool (b : Bool)
  | int (i : Int)
  | float (x : PyFloat)
  | str (s : String)
  | arr (xs : List Json)
  | obj (d : List (String × Json))

/-- A `dict` with string keys: its items, in insertion order. -/
abbrev PyDict := List (String × Json)

/-- A raised exception, by its class; `exception` is any other subclass of `Exception`. -/
inductive PyExc where
  | typeError (msg : String)
  | valueError (msg : String)
  | overflowError (msg : String)
  | validationError (msg : String)
  | toolNotFoundError (msg : String)
  | toolExecutionError (msg : String)
  | timeoutError
  | exception (cls msg : String)
  deriving DecidableEq, Repr

namespace PyExc

/-- `type(exc).__name__`. -/
def className : PyExc → String
  | .typeError _ => "TypeError"
  | .valueError _ => "ValueError"
  | .overflowError _ => "OverflowError"
  | .validationError _ => "ValidationError"
  | .toolNotFoundError _ => "ToolNotFoundError"
  | .toolExecutionError _ => "ToolExecutionError"
  | .timeoutError => "TimeoutError"
  | .exception cls _ => cls

/-- `str(exc)`. -/
def text : PyExc → String
  | .typeError m | .valueError m | .overflowError m | .validationError m
  | .toolNotFoundError m | .toolExecutionError m | .exception _ m => m
  | .timeoutError => ""

end PyExc

/-! ## Dictionaries -/

namespace PyDict

/-- `d.get(k)`. -/
def get? : PyDict → String → Option Json
  | [], _ => none
  | (k', v) :: d, k => if k' = k then some v else get? d k

/-- `d.get(k, default)`. -/
def getD (d : PyDict) (k : String) (default : Json) : Json := (get? d k).getD default

/-- `k in d`. -/
def contains (d : PyDict) (k : String) : Bool := (get? d k).isSome

/-- `d[k] = v`, and `{**d, k: v}`: a present key keeps its place. -/
def set : PyDict → String → Json → PyDict
  | [], k, v => [(k, v)]
  | (k', v') :: d, k, v => if k' = k then (k, v) :: d else (k', v') :: set d k v

/-- `d.pop(k, None)`. -/
def pop (d : PyDict) (k : String) : PyDict := d.filter fun p => p.1 != k

theorem get?_cons_ne (d : PyDict) {k k' : String} (v : Json) (h : k' ≠ k) :
    get? ((k', v) :: d) k = get? d k := if_neg h

theorem get?_cons_congr {d d' : PyDict} {k : String} {p : String × Json}
    (h : get? d k = get? d' k) : get? (p :: d) k = get? (p :: d') k := by
  simp only [get?, h]

@[simp] theorem get?_set_self (d : PyDict) (k : String) (v : Json) :
    get? (set d k v) k = some v := by
  induction d with
  | nil => simp [set, get?]
  | cons p d ih =>
    obtain ⟨k', v'⟩ := p
    by_cases h : k' = k
    · simp [set, get?, h]
    · simp [set, get?, h, ih]

theorem get?_set_ne (d : PyDict) {k k' : String} (v : Json) (h : k ≠ k') :
    get? (set d k v) k' = get? d k' := by
  induction d with
  | nil => simp [set, get?, h]
  | cons p d ih =>
    obtain ⟨k₀, v₀⟩ := p
    by_cases h₀ : k₀ = k
    · subst h₀
      simp [set, get?, h]
    · simp only [set, h₀, if_false, get?, ih]

theorem pop_set_self (d : PyDict) (k : String) (v : Json) : pop (set d k v) k = pop d k := by
  induction d with
  | nil => simp [set, pop]
  | cons p d ih =>
    obtain ⟨k', v'⟩ := p
    by_cases h : k' = k
    · simp [set, pop, h]
    · rw [set, if_neg h, pop, List.filter_cons, ← pop, ih, pop, pop, List.filter_cons]

end PyDict

namespace Json

/-- `bool(v)`. -/
def truthy : Json → Bool
  | .null => false
  | .bool b => b
  | .int i => i != 0
  | .float x => x.truthy
  | .str s => s != ""
  | .arr xs => !xs.isEmpty
  | .obj d => !d.isEmpty

/-- `isinstance(v, dict)`. -/
def asDict? : Json → Option PyDict
  | .obj d => some d
  | _ => none

/-- `hash(v)` succeeds: a `list` and a `dict` are unhashable. -/
def hashable : Json → Bool
  | .arr _ | .obj _ => false
  | _ => true

/-- `type(v).__name__`. -/
def typeName : Json → String
  | .null => "NoneType"
  | .bool _ => "bool"
  | .int _ => "int"
  | .float _ => "float"
  | .str _ => "str"
  | .arr _ => "list"
  | .obj _ => "dict"

/-- The number that a `bool`, an `int` or a `float` compares as. -/
def number? : Json → Option PyFloat
  | .bool b => some (.finite (if b then 1 else 0))
  | .int i => some (.finite i)
  | .float x => some x
  | _ => none

/-- `==` of two numbers, exact; a NaN equals nothing. -/
def numberEq : Option PyFloat → Option PyFloat → Bool
  | some .nan, _ => false
  | some x, some y => x = y
  | _, _ => false

mutual
/-- `a == b`. -/
def pyEq : Json → Json → Bool
  | .null, .null => true
  | .str s, .str t => s = t
  | .arr xs, .arr ys => pyEqList xs ys
  | .obj d, .obj e => d.length == e.length && pyEqItems d e
  | a, b => numberEq (number? a) (number? b)
/-- `==` of two lists. -/
def pyEqList : List Json → List Json → Bool
  | [], [] => true
  | x :: xs, y :: ys => pyEq x y && pyEqList xs ys
  | _, _ => false
/-- Each item of the first dictionary has an equal one in the second. -/
def pyEqItems : List (String × Json) → List (String × Json) → Bool
  | [], _ => true
  | (k, v) :: d, e =>
    (match PyDict.get? e k with
      | some w => pyEq v w
      | none => false) && pyEqItems d e
end

/-- `list(v)`. -/
def toList : Json → Except PyExc (List Json)
  | .arr xs => .ok xs
  | .str s => .ok (s.toList.map fun c => .str (String.ofList [c]))
  | .obj d => .ok (d.map fun p => .str p.1)
  | v => .error (.typeError ("'" ++ v.typeName ++ "' object is not iterable"))

/-- `list(v)` succeeds. -/
def iterable : Json → Bool
  | .arr _ | .str _ | .obj _ => true
  | _ => false

theorem toList_of_iterable {v : Json} (h : v.iterable = true) : ∃ xs, v.toList = .ok xs := by
  cases v <;> first | exact ⟨_, rfl⟩ | simp [iterable] at h

/-- `float(v)`. -/
def toFloat : Json → Except PyExc PyFloat
  | .bool b => .ok (.finite (if b then 1 else 0))
  | .int i =>
    match PyFloat.ofRat i with
    | .finite q => .ok (.finite q)
    | _ => .error (.overflowError "int too large to convert to float")
  | .float x => .ok x
  | .str s =>
    match floatOfText s with
    | some x => .ok x
    | none => .error (.valueError "could not convert string to float")
  | v => .error (.typeError
      ("float() argument must be a string or a real number, not '" ++ v.typeName ++ "'"))

end Json

end Py
end AutoSRE
