import AutoSRE.Lib.Sys

/-!
# The code sandbox (`core/codeact.py`)

- **The syntax check** (`validateAst`). The nodes of the tree, breadth first; a run evaluates the
  same nodes (`mem_walk`), so every one of them has passed (`checkNode_of_valid`).
- **The library** (`Library`). The modules of the interpreter as a graph: what an import gives, what
  each attribute is bound to, what an operation gives for its arguments and which attributes it
  reads by a string.
- **The worker** (`worker`). A run may evaluate any node of the program on any values it holds, in
  any order, so every Python program has its runs among these.
- **Confinement** (`Confined`). No value is a module from outside `allowedModules`, and no dunder
  but the safe ones is read by a name of the program's choice. The checks see neither what an
  attribute is bound to nor a name that is not an attribute node: confinement holds as long as every
  step is clean (`clean`), and the first that is not breaks it.
-/

namespace AutoSRE
namespace Core
namespace CodeAct

open Lib

/-! ## The lists -/

/-- `ALLOWED_MODULES`. -/
def allowedModules : List String :=
  ["pandas", "pd", "numpy", "np", "math", "statistics", "json", "datetime", "time", "re",
    "collections", "itertools", "functools", "operator", "string", "textwrap", "decimal",
    "fractions", "random"]

/-- `BLOCKED_BUILTINS`. -/
def blockedBuiltins : List String :=
  ["eval", "exec", "compile", "open", "input", "globals", "locals", "vars", "dir", "getattr",
    "setattr", "delattr", "breakpoint", "exit", "quit"]

/-- `SAFE_DUNDERS`. -/
def safeDunders : List String :=
  ["__len__", "__str__", "__repr__", "__iter__", "__next__", "__getitem__", "__setitem__",
    "__contains__", "__bool__", "__eq__", "__ne__", "__lt__", "__le__", "__gt__", "__ge__",
    "__add__", "__sub__", "__mul__", "__truediv__", "__floordiv__", "__mod__", "__pow__",
    "__neg__", "__pos__", "__abs__", "__int__", "__float__", "__complex__", "__round__",
    "__hash__"]

/-- `_DANGEROUS_CALL_NAMES`. -/
def dangerousCallNames : List String := ["eval", "exec", "__import__"]

/-- `name.split(".")`, on characters. -/
def splitDots : List Char → List (List Char)
  | [] => [[]]
  | '.' :: cs => [] :: splitDots cs
  | c :: cs =>
    match splitDots cs with
    | [] => [[c]]
    | part :: parts => (c :: part) :: parts

/-- `name.split(".")`. -/
def split (name : String) : List String := (splitDots name.toList).map String.ofList

/-- `name.split(".")[0]`. -/
def topLevel (name : String) : String := (split name).headD ""

/-- The module is under one of `ALLOWED_MODULES`. -/
def isAllowed (name : String) : Bool := allowedModules.contains (topLevel name)

/-- A dunder that is not in `SAFE_DUNDERS`. -/
def isUnsafeDunder (attr : String) : Bool :=
  attr.toList.take 2 == ['_', '_'] && attr.toList.reverse.take 2 == ['_', '_'] &&
    !safeDunders.contains attr

/-! ## The syntax check -/

/-- `ast.alias`. -/
structure Alias where
  name : String
  asname : Option String := none
  deriving DecidableEq

/-- `ast.AST`. The nodes that neither the check nor the import system looks at are `other`. -/
inductive Node where
  | importStmt (names : List Alias)
  | importFrom (module : Option String) (names : List Alias) (level : Nat)
  | call (func : Node) (args : List Node)
  | attribute (value : Node) (attr : String)
  | name (id : String)
  | matchClass (cls : Node) (patterns : List Node) (kwdAttrs : List String)
      (kwdPatterns : List Node)
  | other (children : List Node)

/-- `ast.iter_child_nodes`. -/
def Node.children : Node → List Node
  | .importStmt _ | .importFrom _ _ _ | .name _ => []
  | .call func args => func :: args
  | .attribute value _ => [value]
  | .matchClass cls patterns _ kwdPatterns => cls :: (patterns ++ kwdPatterns)
  | .other children => children

mutual

/-- The nodes of a tree, each before its children. -/
def Node.subnodes : Node → List Node
  | .importStmt names => [.importStmt names]
  | .importFrom module names level => [.importFrom module names level]
  | .call func args => .call func args :: (func.subnodes ++ subnodesList args)
  | .attribute value attr => .attribute value attr :: value.subnodes
  | .name id => [.name id]
  | .matchClass cls patterns kwdAttrs kwdPatterns =>
    .matchClass cls patterns kwdAttrs kwdPatterns ::
      (cls.subnodes ++ (subnodesList patterns ++ subnodesList kwdPatterns))
  | .other children => .other children :: subnodesList children

/-- The nodes of several trees. -/
def subnodesList : List Node → List Node
  | [] => []
  | n :: ns => n.subnodes ++ subnodesList ns

end

/-- The loop of `ast.walk`: the queue `todo`, with a bound on the nodes that are left. -/
def walkFrom : Nat → List Node → List Node
  | 0, _ => []
  | _ + 1, [] => []
  | k + 1, n :: todo => n :: walkFrom k (todo ++ n.children)

/-- `ast.walk`. -/
def walk (tree : Node) : List Node := walkFrom tree.subnodes.length [tree]

/-- The modules that an `import` names, up to the first that is not allowed. -/
def checkNames : List Alias → Except String Unit
  | [] => .ok ()
  | a :: names =>
    if isAllowed a.name then checkNames names else .error s!"Import not allowed: {a.name}"

/-- The body of the loop of `_validate_ast`. -/
def checkNode : Node → Except String Unit
  | .importStmt names => checkNames names
  | .importFrom (some module) _ _ =>
    if module == "" || isAllowed module then .ok () else .error s!"Import not allowed: {module}"
  | .call (.name id) _ =>
    if dangerousCallNames.contains id then .error s!"Dangerous function call: {id}" else .ok ()
  | .call (.attribute _ attr) _ =>
    if dangerousCallNames.contains attr then .error s!"Dangerous method call: {attr}" else .ok ()
  | .attribute _ attr =>
    if isUnsafeDunder attr then .error s!"Dangerous dunder access: {attr}" else .ok ()
  | _ => .ok ()

/-- The loop of `_validate_ast`: the first `CodeActSecurityError`. -/
def checkNodes : List Node → Except String Unit
  | [] => .ok ()
  | n :: ns =>
    match checkNode n with
    | .error e => .error e
    | .ok () => checkNodes ns

/-- `_validate_ast`. `parse` is `ast.parse`. -/
def validateAst (parse : String → Except String Node) (code : String) : Except String Unit :=
  match parse code with
  | .error e => .error s!"Syntax error: {e}"
  | .ok tree => checkNodes (walk tree)

@[simp] theorem subnodesList_append (ns ms : List Node) :
    subnodesList (ns ++ ms) = subnodesList ns ++ subnodesList ms := by
  induction ns with
  | nil => simp [subnodesList]
  | cons n ns ih => simp [subnodesList, ih]

theorem subnodes_eq (n : Node) : n.subnodes = n :: subnodesList n.children := by
  cases n <;> simp [Node.subnodes, Node.children, subnodesList]

/-- The walk reaches the nodes of the trees in its queue, and no others. -/
theorem mem_walkFrom {k : Nat} {todo : List Node} (hk : (subnodesList todo).length ≤ k)
    (m : Node) : m ∈ walkFrom k todo ↔ m ∈ subnodesList todo := by
  induction k generalizing todo with
  | zero =>
    have hnil : subnodesList todo = [] := List.eq_nil_of_length_eq_zero (by omega)
    simp [walkFrom, hnil]
  | succ k ih =>
    cases todo with
    | nil => simp [walkFrom, subnodesList]
    | cons n todo =>
      simp only [subnodesList, subnodes_eq n, List.cons_append, List.length_cons,
        List.length_append] at hk
      have hle : (subnodesList (todo ++ n.children)).length ≤ k := by
        simp only [subnodesList_append, List.length_append]
        omega
      simp only [walkFrom, List.mem_cons, ih hle, subnodesList, subnodes_eq n, List.cons_append,
        subnodesList_append, List.mem_append]
      exact or_congr_right or_comm

theorem mem_walk {tree m : Node} : m ∈ walk tree ↔ m ∈ tree.subnodes := by
  have hle : (subnodesList [tree]).length ≤ tree.subnodes.length := by simp [subnodesList]
  rw [walk, mem_walkFrom hle m]
  simp [subnodesList]

theorem checkNodes_ok {ns : List Node} (h : checkNodes ns = .ok ()) {n : Node} (hn : n ∈ ns) :
    checkNode n = .ok () := by
  induction ns with
  | nil => exact absurd hn List.not_mem_nil
  | cons m ns ih =>
    simp only [checkNodes] at h
    split at h
    · cases h
    · rename_i hm
      rcases List.mem_cons.mp hn with rfl | hn
      · exact hm
      · exact ih h hn

/-! ## The interpreter and its library -/

/-- A value of a program. -/
inductive Value (Obj : Type) where
  /-- An object of the library: a module, a class, a function. -/
  | obj (o : Obj)
  | str (s : String)
  /-- An object that the program made: a number, a container, a class, an instance. -/
  | own (i : Nat)
  /-- `restricted_import`, a function like any other to the program. -/
  | importer
  deriving DecidableEq

/-- The modules of the interpreter as a graph of attributes. `Op` are the operations of the
language and the library on values: a call, a subscript, an iteration, a positional pattern. -/
structure Library (Obj Op : Type) where
  /-- The name of a module; `none` for an object that is not a module. -/
  moduleName : Obj → Option String
  /-- The names of the module `builtins`. -/
  builtin : String → Option Obj
  /-- `builtins.__import__`, with the package of its globals, the name, the names to import from
  the module and the level. -/
  imported (package name : String) (fromlist : List String) (level : Nat) : Option Obj
  /-- The module has a `__path__`. Its import looks for the names of `fromlist` in it. -/
  isPackage : Obj → Bool
  /-- What an attribute is bound to. -/
  attr : Value Obj → String → Option (Value Obj)
  /-- The submodule that a `from` import falls back to. -/
  submodule : Obj → String → Option (Value Obj)
  /-- The names and values that `from m import *` binds. -/
  exports : Obj → List (Value Obj)
  /-- What an operation gives, and the attributes that it reads by a string of its operands, such
  as those of `operator.attrgetter`. -/
  apply : Op → List (Value Obj) → Option (List String × Value Obj)
  /-- The builtins are functions, classes and constants. -/
  builtin_noModule : ∀ name o, builtin name = some o → moduleName o = none
  /-- An import gives a module: one under the name's top level, or for a relative import under the
  package's. -/
  imported_name : ∀ package name fromlist level o, imported package name fromlist level = some o →
    ∃ m, moduleName o = some m ∧ topLevel m = topLevel (if level = 0 then name else package)

variable {Obj Op : Type}

namespace Library

variable (lib : Library Obj Op)

/-- The value is a module from outside `ALLOWED_MODULES`. -/
def isOutside : Value Obj → Bool
  | .obj o => (lib.moduleName o).any fun m => !isAllowed m
  | _ => false

/-- A binding that leads to such a module. -/
def leaks (binding : Option (Value Obj)) : Bool := binding.any lib.isOutside

/-- The attributes that an import of `fromlist` reads of the module. -/
def handleFromlist (o : Obj) (fromlist : List String) : List String :=
  if lib.isPackage o then fromlist.filter (· != "*") else []

/-- What `from o import name` binds. -/
def fromName (o : Obj) (name : String) : Option (Value Obj) :=
  (lib.attr (.obj o) name).or (lib.submodule o name)

/-- What `import a.b.c as d` binds: it reads the path `b`, `c` from the module `a`. -/
def follow (v : Value Obj) : List String → Option (Value Obj)
  | [] => some v
  | name :: path =>
    match v with
    | .obj o => (lib.fromName o name).bind fun w => follow w path
    | _ => (lib.attr v name).bind fun w => follow w path

end Library

/-- `restricted_import`, up to the call of `builtins.__import__`. -/
def restrictedImport (name : String) : Except String Unit :=
  if isAllowed name then .ok () else .error s!"Module not allowed: {name}"

/-- `restricted_import`. -/
def importModule (lib : Library Obj Op) (package name : String) (fromlist : List String)
    (level : Nat) : Option Obj :=
  match restrictedImport name with
  | .error _ => none
  | .ok () => lib.imported package name fromlist level

/-- `_create_restricted_builtins`. -/
def restrictedBuiltin (lib : Library Obj Op) (name : String) : Option (Value Obj) :=
  if name == "__import__" then some .importer
  else if blockedBuiltins.contains name then none
  else (lib.builtin name).map .obj

/-! ## The worker -/

/-- What happens in a run that the property is about. -/
inductive Event (Obj : Type) where
  /-- An expression or a binding of the program has this value. -/
  | evaluated (v : Value Obj)
  /-- An attribute is read by a name of the program's choice. -/
  | read (attr : String)
  deriving DecidableEq

/-- One evaluation of a run. `k` is the node that is evaluated, by its place in the program; where
an object of the program may answer instead of the library, `stored` is what the program put
there. -/
inductive Label (Obj Op : Type) where
  /-- The `i`-th name of an `import`. -/
  | importName (k i : Nat)
  /-- The `i`-th name of a `from` import, whose relative names are resolved in `package`. -/
  | importFrom (k i : Nat) (package : String)
  /-- The `i`-th binding of `from m import *`. -/
  | importStar (k i : Nat) (package : String)
  /-- An attribute node, with `operand` for the value of its expression. -/
  | attr (k : Nat) (operand : Value Obj) (stored : Option (Value Obj))
  /-- The `i`-th keyword of a class pattern. -/
  | keyword (k i : Nat) (subject : Value Obj) (stored : Option (Value Obj))
  /-- A builtin, by its name or out of `__builtins__`. -/
  | lookup (name : String)
  /-- A call of `restricted_import` by another name, with a `__package__` of the program's. -/
  | callImport (package name : String) (fromlist : List String) (level : Nat)
  /-- An operation on values of the program. -/
  | apply (op : Op) (args : List (Value Obj))
  /-- A variable or an item gives back what the program put there. -/
  | stored (v : Value Obj)
  /-- A text, or a new object of the program. -/
  | make (v : Value Obj)

/-- What an evaluation reads by a name of the program's choice, and its value. -/
structure Outcome (Obj : Type) where
  reads : List String := []
  value : Value Obj

/-- The events of an evaluation. -/
def Outcome.events (o : Outcome Obj) : List (Event Obj) :=
  o.reads.map .read ++ [.evaluated o.value]

/-- The path that an `import` reads of the module: none without an `as`. -/
def Alias.path (a : Alias) : List String :=
  match a.asname with
  | none => []
  | some _ => (split a.name).tail

/-- The parts of a `from` import that its `i`-th name needs. -/
structure FromName where
  module : String
  names : List String
  level : Nat
  name : String

section Steps

variable [DecidableEq Obj] (lib : Library Obj Op) (nodes : List Node) (held : List (Value Obj))

/-- The `i`-th name of the import at `k`. -/
def importAlias (k i : Nat) : Option Alias :=
  match nodes[k]? with
  | some (.importStmt names) => names[i]?
  | _ => none

/-- The `i`-th name of the `from` import at `k`. -/
def fromAlias (k i : Nat) : Option FromName :=
  match nodes[k]? with
  | some (.importFrom module names level) =>
    names[i]?.map fun a => ⟨module.getD "", names.map (·.name), level, a.name⟩
  | _ => none

/-- The `from m import *` at `k`. -/
def starImport (k : Nat) : Option FromName :=
  (fromAlias nodes k 0).filter fun a => a.names == ["*"]

/-- The name of the attribute node at `k`. -/
def attrName (k : Nat) : Option String :=
  match nodes[k]? with
  | some (.attribute _ attr) => some attr
  | _ => none

/-- The `i`-th keyword of the class pattern at `k`. -/
def patternName (k i : Nat) : Option String :=
  match nodes[k]? with
  | some (.matchClass _ _ kwdAttrs _) => kwdAttrs[i]?
  | _ => none

/-- An attribute of a value that the program holds. -/
def readAttr (v : Value Obj) (attr : String) : Option (Value Obj) → Option (Value Obj)
  | some w => if v ∈ held ∧ w ∈ held then some w else none
  | none => if v ∈ held then lib.attr v attr else none

/-- The outcome of an evaluation; `none` where it raises or is not of the program. -/
def outcome : Label Obj Op → Option (Outcome Obj)
  | .importName k i => do
    let a ← importAlias nodes k i
    let m ← importModule lib "" a.name [] 0
    let v ← lib.follow (.obj m) a.path
    return { reads := a.path, value := v }
  | .importFrom k i package => do
    let a ← fromAlias nodes k i
    let m ← importModule lib package a.module a.names a.level
    let v ← lib.fromName m a.name
    return { reads := lib.handleFromlist m a.names ++ [a.name], value := v }
  | .importStar k i package => do
    let a ← starImport nodes k
    let m ← importModule lib package a.module a.names a.level
    let v ← (lib.exports m)[i]?
    return { value := v }
  | .attr k operand stored => do
    let attr ← attrName nodes k
    let v ← readAttr lib held operand attr stored
    return { reads := [attr], value := v }
  | .keyword k i subject stored => do
    let attr ← patternName nodes k i
    let v ← readAttr lib held subject attr stored
    return { reads := [attr], value := v }
  | .lookup name => do
    let v ← restrictedBuiltin lib name
    return { value := v }
  | .callImport package name fromlist level =>
    if .importer ∈ held then do
      let m ← importModule lib package name fromlist level
      return { reads := lib.handleFromlist m fromlist, value := .obj m }
    else none
  | .apply op args =>
    if ∀ v ∈ args, v ∈ held then do
      let (reads, v) ← lib.apply op args
      return { reads := reads, value := v }
    else none
  | .stored v => if v ∈ held then some { value := v } else none
  | .make v =>
    match v with
    | .str _ | .own _ => some { value := v }
    | .obj _ | .importer => none

end Steps

/-- The nodes of a program. -/
def program (parse : String → Except String Node) (code : String) : List Node :=
  match parse code with
  | .error _ => []
  | .ok tree => tree.subnodes

/-- `_worker`: the program runs when it passes the check. The states are the values it holds. -/
def worker [DecidableEq Obj] (lib : Library Obj Op) (parse : String → Except String Node)
    (code : String) : Sys (List (Value Obj)) (Label Obj Op) (Event Obj) where
  init held := held = [] ∧ validateAst parse code = .ok ()
  step held a := (outcome lib (program parse code) held a).map fun o => (o.value :: held, o.events)

/-! ## Confinement -/

/-- The event is not an escape. -/
def Event.isConfined (lib : Library Obj Op) : Event Obj → Bool
  | .evaluated v => !lib.isOutside v
  | .read attr => !isUnsafeDunder attr

/-- No event of the log is an escape. -/
def Confined (lib : Library Obj Op) (es : List (Event Obj)) : Prop :=
  ∀ e ∈ es, e.isConfined lib = true

/-- None of the names is a dunder that is not safe. -/
def areSafe (names : List String) : Bool := names.all fun name => !isUnsafeDunder name

/-- The evaluation stays inside where the checks do not look: at what the library binds to an
attribute, gives for an operation or imports from a relative package, and at the names of imports
and patterns and the strings of operations. -/
def clean (lib : Library Obj Op) (nodes : List Node) : Label Obj Op → Bool
  | .importName k i =>
    (importAlias nodes k i).all fun a => areSafe a.path && (a.path == [] ||
      !lib.leaks ((lib.imported "" a.name [] 0).bind fun m => lib.follow (.obj m) a.path))
  | .importFrom k i package =>
    (fromAlias nodes k i).all fun a => (lib.imported package a.module a.names a.level).all fun m =>
      areSafe (lib.handleFromlist m a.names ++ [a.name]) && !lib.leaks (lib.fromName m a.name)
  | .importStar k i package =>
    (starImport nodes k).all fun a => (lib.imported package a.module a.names a.level).all fun m =>
      !lib.leaks (lib.exports m)[i]?
  | .attr k operand stored =>
    (attrName nodes k).all fun attr => stored.isSome || !lib.leaks (lib.attr operand attr)
  | .keyword k i subject stored =>
    (patternName nodes k i).all fun attr =>
      !isUnsafeDunder attr && (stored.isSome || !lib.leaks (lib.attr subject attr))
  | .callImport package name fromlist level =>
    (level == 0 || isAllowed package) &&
      (lib.imported package name fromlist level).all fun m =>
        areSafe (lib.handleFromlist m fromlist)
  | .apply op args =>
    (lib.apply op args).all fun r => areSafe r.1 && !lib.isOutside r.2
  | .lookup _ | .stored _ | .make _ => true

section Confinement

variable {lib : Library Obj Op} {nodes : List Node} {held : List (Value Obj)}

theorem confined_append {es fs : List (Event Obj)} (hes : Confined lib es)
    (hfs : Confined lib fs) : Confined lib (es ++ fs) := by
  intro e he
  rcases List.mem_append.mp he with he | he
  · exact hes e he
  · exact hfs e he

/-- The events of an evaluation are no escapes when its names are safe and its value is inside. -/
theorem confined_events {o : Outcome Obj} :
    Confined lib o.events ↔ areSafe o.reads = true ∧ lib.isOutside o.value = false := by
  simp only [Confined, Outcome.events, areSafe, List.forall_mem_append, List.mem_map,
    List.mem_singleton, forall_eq, List.all_eq_true, Event.isConfined, Bool.not_eq_eq_eq_not,
    Bool.not_true]
  refine and_congr_left fun _ => ⟨fun h attr ha => ?_, ?_⟩
  · simpa [Event.isConfined] using h (.read attr) ⟨attr, ha, rfl⟩
  · rintro h _ ⟨attr, ha, rfl⟩
    simpa [Event.isConfined] using h attr ha

theorem importModule_eq_some {package name : String} {fromlist : List String} {level : Nat}
    {m : Obj} (h : importModule lib package name fromlist level = some m) :
    isAllowed name = true ∧ lib.imported package name fromlist level = some m := by
  unfold importModule restrictedImport at h
  split at h
  · cases h
  · rename_i hr
    split at hr
    · exact ⟨by assumption, h⟩
    · cases hr

/-- `restricted_import` gives a module from outside only for a relative name. -/
theorem isOutside_import {package name : String} {fromlist : List String} {level : Nat} {m : Obj}
    (h : importModule lib package name fromlist level = some m) :
    lib.isOutside (.obj m) = false ↔ level = 0 ∨ isAllowed package = true := by
  obtain ⟨hname, him⟩ := importModule_eq_some h
  obtain ⟨mn, hm, htop⟩ := lib.imported_name _ _ _ _ _ him
  have hall : isAllowed mn = isAllowed (if level = 0 then name else package) := by
    unfold isAllowed
    rw [htop]
  rw [Library.isOutside, hm, Option.any_some, hall]
  by_cases hl : level = 0
  · simp [hl, hname]
  · simp [hl]

/-- A builtin is not a module. -/
theorem isOutside_builtin {name : String} {v : Value Obj}
    (h : restrictedBuiltin lib name = some v) : lib.isOutside v = false := by
  unfold restrictedBuiltin at h
  split at h
  · cases h
    rfl
  · split at h
    · cases h
    · obtain ⟨o, ho, rfl⟩ := Option.map_eq_some_iff.mp h
      simp [Library.isOutside, lib.builtin_noModule _ _ ho]

/-- An attribute node that has passed the check names a safe attribute. -/
theorem attrName_safe (hv : ∀ n ∈ nodes, checkNode n = .ok ()) {k : Nat} {attr : String}
    (h : attrName nodes k = some attr) : isUnsafeDunder attr = false := by
  unfold attrName at h
  split at h
  · rename_i value attr' hk
    cases h
    have hn := hv _ (List.mem_of_getElem? hk)
    simp only [checkNode] at hn
    split at hn
    · cases hn
    · simpa using ‹¬ isUnsafeDunder attr = true›
  · cases h

variable [DecidableEq Obj]

/-- What an attribute gives: what the program has put there, or the binding of the library. -/
theorem isOutside_readAttr (hin : ∀ v ∈ held, lib.isOutside v = false) {v w : Value Obj}
    {attr : String} {stored : Option (Value Obj)}
    (h : readAttr lib held v attr stored = some w) :
    lib.isOutside w = false ↔ stored.isSome = true ∨ lib.leaks (lib.attr v attr) = false := by
  cases stored with
  | none =>
    simp only [readAttr] at h
    split at h
    · simp [h, Library.leaks]
    · cases h
  | some u =>
    simp only [readAttr] at h
    split at h
    · rename_i hu
      cases h
      simpa using hin _ hu.2
    · cases h

/-- Of a program that has passed the check, an evaluation on values from inside is confined exactly
if it is clean. -/
theorem confined_iff_clean (hv : ∀ n ∈ nodes, checkNode n = .ok ())
    (hin : ∀ v ∈ held, lib.isOutside v = false) {a : Label Obj Op} {o : Outcome Obj}
    (h : outcome lib nodes held a = some o) :
    Confined lib o.events ↔ clean lib nodes a = true := by
  rw [confined_events]
  cases a with
  | importName k i =>
    simp only [outcome, Option.bind_eq_bind, Option.bind_eq_some_iff, Option.pure_def,
      Option.some.injEq] at h
    obtain ⟨a, ha, m, hm, v, hf, rfl⟩ := h
    obtain ⟨-, him⟩ := importModule_eq_some hm
    have hout := isOutside_import hm
    by_cases hp : a.path = []
    · rw [hp] at hf
      cases hf
      simp [clean, ha, hp, hout.mpr (.inl rfl), areSafe]
    · simp [clean, ha, hp, him, hf, Library.leaks]
  | importFrom k i package =>
    simp only [outcome, Option.bind_eq_bind, Option.bind_eq_some_iff, Option.pure_def,
      Option.some.injEq] at h
    obtain ⟨a, ha, m, hm, v, hf, rfl⟩ := h
    simp [clean, ha, (importModule_eq_some hm).2, hf, Library.leaks]
  | importStar k i package =>
    simp only [outcome, Option.bind_eq_bind, Option.bind_eq_some_iff, Option.pure_def,
      Option.some.injEq] at h
    obtain ⟨a, ha, m, hm, v, he, rfl⟩ := h
    simp [clean, ha, (importModule_eq_some hm).2, he, Library.leaks, areSafe]
  | attr k operand stored =>
    simp only [outcome, Option.bind_eq_bind, Option.bind_eq_some_iff, Option.pure_def,
      Option.some.injEq] at h
    obtain ⟨attr, ha, v, hr, rfl⟩ := h
    simp [clean, ha, isOutside_readAttr hin hr, areSafe, attrName_safe hv ha]
  | keyword k i subject stored =>
    simp only [outcome, Option.bind_eq_bind, Option.bind_eq_some_iff, Option.pure_def,
      Option.some.injEq] at h
    obtain ⟨attr, ha, v, hr, rfl⟩ := h
    simp [clean, ha, isOutside_readAttr hin hr, areSafe]
  | lookup name =>
    simp only [outcome, Option.bind_eq_bind, Option.bind_eq_some_iff, Option.pure_def,
      Option.some.injEq] at h
    obtain ⟨v, hb, rfl⟩ := h
    simp [clean, isOutside_builtin hb, areSafe]
  | callImport package name fromlist level =>
    simp only [outcome] at h
    split at h
    · simp only [Option.bind_eq_bind, Option.bind_eq_some_iff, Option.pure_def,
        Option.some.injEq] at h
      obtain ⟨m, hm, rfl⟩ := h
      simp [clean, (importModule_eq_some hm).2, isOutside_import hm, and_comm (a := _ ∨ _)]
    · cases h
  | apply op args =>
    simp only [outcome] at h
    split at h
    · simp only [Option.bind_eq_bind, Option.bind_eq_some_iff, Option.pure_def,
        Option.some.injEq] at h
      obtain ⟨⟨reads, v⟩, hap, rfl⟩ := h
      simp [clean, hap]
    · cases h
  | stored v =>
    simp only [outcome] at h
    split at h
    · rename_i hv'
      cases h
      simp [clean, hin v hv', areSafe]
    · cases h
  | make v =>
    cases v <;> cases h <;> simp [clean, areSafe, Library.isOutside]

/-- The nodes of a program that runs have passed the check. -/
theorem checkNode_of_valid {parse : String → Except String Node} {code : String}
    (h : validateAst parse code = .ok ()) :
    ∀ n ∈ program parse code, checkNode n = .ok () := by
  intro n hn
  unfold validateAst at h
  unfold program at hn
  split at h
  · cases h
  · rename_i tree hp
    rw [hp] at hn
    exact checkNodes_ok h (mem_walk.mpr hn)

variable (lib) in
/-- What holds in a run of clean steps. -/
structure Inside (parse : String → Except String Node) (code : String) (es : List (Event Obj))
    (held : List (Value Obj)) : Prop where
  checked : ∀ n ∈ program parse code, checkNode n = .ok ()
  held_inside : ∀ v ∈ held, lib.isOutside v = false
  confined : Confined lib es

/-- The next step of such a run is confined exactly if it is clean. -/
theorem Inside.step_confined_iff {parse : String → Except String Node} {code : String}
    {es fs : List (Event Obj)} {held' : List (Value Obj)} (hi : Inside lib parse code es held)
    {a : Label Obj Op} (hs : (worker lib parse code).step held a = some (held', fs)) :
    Confined lib fs ↔ clean lib (program parse code) a = true := by
  obtain ⟨o, ho, heq⟩ := Option.map_eq_some_iff.mp hs
  cases heq
  exact confined_iff_clean hi.checked hi.held_inside ho

theorem Inside.step {parse : String → Except String Node} {code : String}
    {es fs : List (Event Obj)} {held' : List (Value Obj)} (hi : Inside lib parse code es held)
    {a : Label Obj Op} (hc : clean lib (program parse code) a = true)
    (hs : (worker lib parse code).step held a = some (held', fs)) :
    Inside lib parse code (es ++ fs) held' := by
  have hfs := (hi.step_confined_iff hs).mpr hc
  refine ⟨hi.checked, ?_, confined_append hi.confined hfs⟩
  obtain ⟨o, -, heq⟩ := Option.map_eq_some_iff.mp hs
  cases heq
  intro v hv
  rcases List.mem_cons.mp hv with rfl | hv
  · exact (confined_events.mp hfs).2
  · exact hi.held_inside v hv

theorem inside_of_run {parse : String → Except String Node} {code : String} {n : Nat}
    {es : List (Event Obj)}
    (hr : (worker lib parse code).Run (fun _ a => clean lib (program parse code) a = true)
      n es held) : Inside lib parse code es held := by
  refine hr.inv (fun s hs => ?_) fun n es s a s' fs _ hi hc hs => hi.step hc hs
  obtain ⟨rfl, hv⟩ := hs
  exact ⟨checkNode_of_valid hv, fun _ h => absurd h List.not_mem_nil,
    fun _ h => absurd h List.not_mem_nil⟩

/-- A run of an accepted program whose steps are clean is confined, and the first step that is not
clean escapes. -/
theorem worker_confined {parse : String → Except String Node} {code : String} {n : Nat}
    {es : List (Event Obj)}
    (hr : (worker lib parse code).Run (fun _ a => clean lib (program parse code) a = true)
      n es held) :
    Confined lib es ∧ ∀ a held' fs, (worker lib parse code).step held a = some (held', fs) →
      (Confined lib fs ↔ clean lib (program parse code) a = true) :=
  have hi := inside_of_run hr
  ⟨hi.confined, fun _ _ _ hs => hi.step_confined_iff hs⟩

end Confinement

/-! ## Programs of a few modules -/

/-- Objects of the standard library. -/
inductive SampleObj where
  | module (name : String)
  | attrgetter
  /-- What `operator.attrgetter(attr)` gives. -/
  | getter (attr : String)
  deriving DecidableEq

/-- Attributes of `math`, `operator` and `random`. `.own 3` stands for the number. -/
def sampleAttr : Value SampleObj → String → Option (Value SampleObj)
  | .obj (.module "math"), "pi" => some (.own 3)
  | .obj (.module "operator"), "attrgetter" => some (.obj .attrgetter)
  | .obj (.module "random"), "_os" => some (.obj (.module "os"))
  | _, _ => none

/-- `math`, `operator` and `random`, with calls as the operations. -/
def sampleLibrary : Library SampleObj Unit where
  moduleName
    | .module name => some name
    | _ => none
  builtin _ := none
  imported _ name _ level :=
    if level = 0 ∧ name ∈ ["math", "operator", "random"] then some (.module name) else none
  isPackage _ := false
  attr := sampleAttr
  submodule _ _ := none
  exports _ := []
  apply _
    | [.obj .attrgetter, .str attr] => some ([], .obj (.getter attr))
    | [.obj (.getter attr), _] => some ([attr], .own 0)
    | _ => none
  builtin_noModule _ _ h := by cases h
  imported_name _ name _ level o h := by
    split at h
    · rename_i hl
      cases h
      exact ⟨name, rfl, by rw [if_pos hl.1]⟩
    · cases h

/-- `import math` and `result = math.pi`. -/
def piTree : Node :=
  .other [.importStmt [⟨"math", none⟩], .other [.attribute (.name "math") "pi"]]

/-- The worker on that program. -/
def piWorker : Sys (List (Value SampleObj)) (Label SampleObj Unit) (Event SampleObj) :=
  worker sampleLibrary (fun _ => .ok piTree) "import math\nresult = math.pi"

/-- An accepted program whose steps are clean. -/
theorem worker_confined_pi : ∃ n es held,
    piWorker.Run (fun _ a => clean sampleLibrary piTree.subnodes a = true) n es held ∧
    es = [.evaluated (.obj (.module "math")), .read "pi", .evaluated (.own 3)] ∧
    Confined sampleLibrary es := by
  have hi : piWorker.init [] := ⟨rfl, rfl⟩
  have hexec : ((piWorker.restrict fun _ a => clean sampleLibrary piTree.subnodes a).exec []
      [.importName 1 0, .attr 3 (.obj (.module "math")) none]).any (fun r => decide
        (r.2 = [.evaluated (.obj (.module "math")), .read "pi", .evaluated (.own 3)])) = true := by
    decide +kernel
  obtain ⟨held, es, hr, hes⟩ := Sys.exists_checked_run (fun _ _ h => h) hi hexec
  exact ⟨_, es, held, hr, of_decide_eq_true hes, (worker_confined hr).1⟩

/-- `import random`, `from operator import attrgetter` and
`result = attrgetter("__class__")(random._os)`. -/
def escapeTree : Node :=
  .other [.importStmt [⟨"random", none⟩], .importFrom (some "operator") [⟨"attrgetter", none⟩] 0,
    .other [.call (.call (.name "attrgetter") [.other []]) [.attribute (.name "random") "_os"]]]

/-- The worker on that program. -/
def escapeWorker : Sys (List (Value SampleObj)) (Label SampleObj Unit) (Event SampleObj) :=
  worker sampleLibrary (fun _ => .ok escapeTree)
    "import random\nfrom operator import attrgetter\nresult = attrgetter(\"__class__\")(random._os)"

/-- A run of the program evaluates to the module `os`, and reads `__class__`. -/
theorem accepted_program_escapes : ∃ n es held, escapeWorker.Run Sys.anyStep n es held ∧
    .evaluated (.obj (.module "os")) ∈ es ∧ .read "__class__" ∈ es ∧
    ¬ Confined sampleLibrary es := by
  have hi : escapeWorker.init [] := ⟨rfl, rfl⟩
  have hexec : (escapeWorker.exec [] [.importName 1 0, .importFrom 2 0 "", .make (.str "__class__"),
      .apply () [.obj .attrgetter, .str "__class__"], .attr 8 (.obj (.module "random")) none,
      .apply () [.obj (.getter "__class__"), .obj (.module "os")]]).any (fun r => decide
        (.evaluated (.obj (.module "os")) ∈ r.2 ∧ .read "__class__" ∈ r.2)) = true := by
    decide +kernel
  obtain ⟨held, es, hr, hes⟩ := Sys.exists_any_run hi hexec
  obtain ⟨hos, hclass⟩ := of_decide_eq_true hes
  refine ⟨_, es, held, hr, hos, hclass, fun h => ?_⟩
  exact absurd (h _ hclass) (by decide +kernel)

end CodeAct
end Core
end AutoSRE
