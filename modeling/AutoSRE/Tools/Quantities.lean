import AutoSRE.Python.Decimal
import AutoSRE.Python.Text

/-!
# Kubernetes quantities (`tools/k8s.py`)

- **The parsers** (`parseQuantity`, `parseCpu`, `parseMemoryMb`). The regular expression is matched
  from the left: a digit, a sign or a letter never starts two parts of it at the same place, except
  the exponent, which is taken when a digit follows.
- **The grammar** (`Quantity`). A quantity with its text (`Quantity.render`) and its value.
- **The parsers on the grammar** (`parseQuantity_render`). Every quantity is split into its number
  and its suffix.
- **The rounding** (`parsed_iff`). The parsers return the rounded value exactly when the suffix is
  in their table and the 28 digits of the `Decimal` context do not lose it; `milli_memory_zero` is
  a suffix that is missing.
-/

namespace AutoSRE
namespace Tools

open Py

/-! ## The parsers -/

/-- The digits at the start of a text, and the rest. -/
def takeDigits : List Char → List Nat × List Char
  | [] => ([], [])
  | c :: cs =>
    match decimalValue c with
    | some d => (d :: (takeDigits cs).1, (takeDigits cs).2)
    | none => ([], c :: cs)

/-- The number of a list of digits. -/
def digitsValue (ds : List Nat) : Nat := ds.foldl (fun n d => 10 * n + d) 0

/-- `\d+(?:\.\d*)?|\.\d+`: the digits before and after the point, and the rest. -/
def takeMantissa (cs : List Char) : Option (List Nat × List Nat × List Char) :=
  match takeDigits cs with
  | ([], '.' :: rest) =>
    match takeDigits rest with
    | ([], _) => none
    | (frac, rest) => some ([], frac, rest)
  | ([], _) => none
  | (int, '.' :: rest) => some (int, (takeDigits rest).1, (takeDigits rest).2)
  | (int, rest) => some (int, [], rest)

/-- `(?:[eE][+-]?\d+)?`: the exponent, and the rest. -/
def takeExponent : List Char → Int × List Char
  | [] => (0, [])
  | e :: cs =>
    if e = 'e' ∨ e = 'E' then
      match takeDigits (takeSign cs).2 with
      | ([], _) => (0, e :: cs)
      | (ds, rest) =>
        (if (takeSign cs).1 then -(digitsValue ds : Int) else (digitsValue ds : Int), rest)
    else (0, e :: cs)

/-- `[a-zA-Z]{0,2}`. -/
def isSuffix (cs : List Char) : Bool := decide (cs.length ≤ 2) && cs.all Char.isAlpha

/-- `_parse_quantity`. -/
def parseQuantity (text : String) : Option (ℚ × String) :=
  let signed := takeSign (strip text).toList
  match takeMantissa signed.2 with
  | none => none
  | some (int, frac, rest) =>
    let r := takeExponent rest
    if isSuffix r.2 then
      (decimalOf signed.1 (digitsValue (int ++ frac)) (r.1 - frac.length)).map fun number =>
        (number, String.ofList r.2)
    else none

/-- The factors of `_parse_cpu`. -/
def cpuFactors : List (String × ℚ) :=
  [("", 1000), ("m", 1), ("u", 1 / 1000), ("n", 1 / 1000000), ("k", 1000000)]

/-- `_parse_cpu`. -/
def parseCpu (text : String) : Except PyExc Int :=
  match parseQuantity text with
  | none => .ok 0
  | some (number, suffix) =>
    match cpuFactors.lookup suffix with
    | none => .ok 0
    | some factor => (decimalMul number factor).map fun x => max 0 (decimalToInt x)

/-- The factors of `_parse_memory_mb`. -/
def bytesPerUnit : List (String × ℚ) :=
  [("Ki", 1024), ("Mi", 1024 ^ 2), ("Gi", 1024 ^ 3), ("Ti", 1024 ^ 4), ("Pi", 1024 ^ 5),
    ("Ei", 1024 ^ 6), ("K", 1000), ("k", 1000), ("M", 1000 ^ 2), ("G", 1000 ^ 3), ("T", 1000 ^ 4),
    ("P", 1000 ^ 5), ("E", 1000 ^ 6), ("", 1)]

/-- `_parse_memory_mb`. -/
def parseMemoryMb (text : String) : Except PyExc Int :=
  match parseQuantity text with
  | none => .ok 0
  | some (number, suffix) =>
    match bytesPerUnit.lookup suffix with
    | none => .ok 0
    | some factor => do
      let bytes ← decimalMul number factor
      let mib ← decimalDiv bytes (1024 ^ 2)
      pure (max 0 (decimalToInt mib))

/-! ## The grammar -/

/-- The binary units. -/
inductive BinaryUnit where
  | kibi
  | mebi
  | gibi
  | tebi
  | pebi
  | exbi

/-- The decimal units. -/
inductive DecimalUnit where
  | nano
  | micro
  | milli
  | one
  | kilo
  | mega
  | giga
  | tera
  | peta
  | exa

/-- A sign, if there is one; `true` is a minus. -/
abbrev Sign := Option Bool

/-- The suffix of a quantity. -/
inductive Suffix where
  | binary (unit : BinaryUnit)
  | decimal (unit : DecimalUnit)
  | exponent (upper : Bool) (sign : Sign) (digits : List (Fin 10)) (nonempty : digits ≠ [])

/-- A quantity: digits before the point, the point with the digits after it, and the suffix. -/
structure Quantity where
  sign : Sign
  int : List (Fin 10)
  frac : Option (List (Fin 10))
  nonempty : int ≠ [] ∨ frac.getD [] ≠ []
  suffix : Suffix

def signText : Sign → List Char
  | none => []
  | some true => ['-']
  | some false => ['+']

def digitText (ds : List (Fin 10)) : List Char := ds.map fun d : Fin 10 => Nat.digitChar d.val

def BinaryUnit.text : BinaryUnit → List Char
  | .kibi => ['K', 'i']
  | .mebi => ['M', 'i']
  | .gibi => ['G', 'i']
  | .tebi => ['T', 'i']
  | .pebi => ['P', 'i']
  | .exbi => ['E', 'i']

def DecimalUnit.text : DecimalUnit → List Char
  | .nano => ['n']
  | .micro => ['u']
  | .milli => ['m']
  | .one => []
  | .kilo => ['k']
  | .mega => ['M']
  | .giga => ['G']
  | .tera => ['T']
  | .peta => ['P']
  | .exa => ['E']

def Suffix.text : Suffix → List Char
  | .binary unit => unit.text
  | .decimal unit => unit.text
  | .exponent upper sign digits _ =>
    (if upper then 'E' else 'e') :: (signText sign ++ digitText digits)

def fracText : Option (List (Fin 10)) → List Char
  | none => []
  | some ds => '.' :: digitText ds

/-- The text of a quantity. -/
def Quantity.render (q : Quantity) : String :=
  String.ofList (signText q.sign ++ (digitText q.int ++ (fracText q.frac ++ q.suffix.text)))

/-! ## The value -/

def signed (sign : Sign) (n : Int) : Int := if sign = some true then -n else n

def digitsNumber (ds : List (Fin 10)) : Nat := digitsValue (ds.map Fin.val)

/-- The power of 1024 of a binary unit. -/
def BinaryUnit.power : BinaryUnit → Nat
  | .kibi => 1
  | .mebi => 2
  | .gibi => 3
  | .tebi => 4
  | .pebi => 5
  | .exbi => 6

/-- The power of 1000 of a decimal unit. -/
def DecimalUnit.power : DecimalUnit → Int
  | .nano => -3
  | .micro => -2
  | .milli => -1
  | .one => 0
  | .kilo => 1
  | .mega => 2
  | .giga => 3
  | .tera => 4
  | .peta => 5
  | .exa => 6

/-- What a suffix multiplies the number with. -/
def Suffix.multiplier : Suffix → ℚ
  | .binary unit => 1024 ^ unit.power
  | .decimal unit => 1000 ^ unit.power
  | .exponent _ sign digits _ => 10 ^ signed sign (digitsNumber digits)

/-- All the digits of the number. -/
def Quantity.digits (q : Quantity) : List (Fin 10) := q.int ++ q.frac.getD []

/-- The value of a quantity. -/
def Quantity.value (q : Quantity) : ℚ :=
  signed q.sign (digitsNumber q.digits) / 10 ^ (q.frac.getD []).length * q.suffix.multiplier

/-- The integer that is nearest; a half is rounded up. -/
def halfUp (x : ℚ) : Int := ⌊x + 1 / 2⌋

/-! ## The parsers on the grammar -/

/-- The text does not go on with a digit. -/
def NoDigit (cs : List Char) : Prop := ∀ c ∈ cs.head?, decimalValue c = none

theorem decimalValue_digitChar (d : Fin 10) : decimalValue (Nat.digitChar d) = some d.val := by
  revert d
  decide

theorem takeDigits_noDigit {cs : List Char} (h : NoDigit cs) : takeDigits cs = ([], cs) := by
  cases cs with
  | nil => rfl
  | cons c cs => simp [takeDigits, h c rfl]

theorem takeDigits_digitText (ds : List (Fin 10)) {rest : List Char} (h : NoDigit rest) :
    takeDigits (digitText ds ++ rest) = (ds.map Fin.val, rest) := by
  induction ds with
  | nil => exact takeDigits_noDigit h
  | cons d ds ih =>
    show takeDigits (Nat.digitChar d :: (digitText ds ++ rest)) = _
    simp only [takeDigits, decimalValue_digitChar, ih, List.map_cons]

theorem digitChar_ne_sign (d : Fin 10) : Nat.digitChar d ≠ '-' ∧ Nat.digitChar d ≠ '+' := by
  revert d
  decide

/-- The sign is taken from a text that goes on with another character. -/
theorem takeSign_signText (sign : Sign) {cs : List Char}
    (h : ∀ c ∈ cs.head?, c ≠ '-' ∧ c ≠ '+') :
    takeSign (signText sign ++ cs) = (sign == some true, cs) := by
  match sign with
  | some true => rfl
  | some false => rfl
  | none =>
    cases cs with
    | nil => rfl
    | cons c cs =>
      obtain ⟨hm, hp⟩ := h c rfl
      unfold takeSign signText
      simp only [List.nil_append]
      split <;> simp_all

theorem takeSign_digitText (sign : Sign) (ds : List (Fin 10)) :
    takeSign (signText sign ++ digitText ds) = (sign == some true, digitText ds) := by
  refine takeSign_signText sign fun c hc => ?_
  cases ds with
  | nil => cases hc
  | cons d ds =>
    cases hc
    exact digitChar_ne_sign d

/-- A list of digits is empty when its values are. -/
theorem map_val_ne_nil {ds : List (Fin 10)} (h : ds ≠ []) : ds.map Fin.val ≠ [] := by
  simpa using h

theorem takeMantissa_text (q : Quantity) {rest : List Char} (hd : NoDigit rest)
    (hp : ∀ c ∈ rest.head?, c ≠ '.') :
    takeMantissa (digitText q.int ++ (fracText q.frac ++ rest)) =
      some (q.int.map Fin.val, (q.frac.getD []).map Fin.val, rest) := by
  have hdot : ∀ cs, NoDigit ('.' :: cs) := by
    rintro cs c hc
    cases hc
    decide
  have hne := q.nonempty
  unfold takeMantissa
  cases hf : q.frac with
  | none =>
    rw [hf] at hne
    have hint : q.int.map Fin.val ≠ [] := map_val_ne_nil (hne.resolve_right fun h => h rfl)
    simp only [fracText, List.nil_append, takeDigits_digitText q.int hd]
    split
    · rename_i heq
      exact absurd (Prod.mk.inj heq).1 hint
    · rename_i heq
      exact absurd (Prod.mk.inj heq).1 hint
    · rename_i heq
      obtain ⟨-, h⟩ := Prod.mk.inj heq
      exact absurd rfl (hp '.' (by rw [h]; rfl))
    · rename_i heq
      obtain ⟨rfl, rfl⟩ := Prod.mk.inj heq
      rfl
  | some ds =>
    rw [hf] at hne
    simp only [fracText, List.cons_append, takeDigits_digitText q.int (hdot _)]
    split
    · rename_i heq
      obtain ⟨hi, hr⟩ := Prod.mk.inj heq
      cases hr
      have hds : ds.map Fin.val ≠ [] := by
        refine map_val_ne_nil (hne.resolve_left fun h => h ?_)
        simpa using hi
      simp only [takeDigits_digitText ds hd]
      rw [hi]
      rfl
    · rename_i hno heq
      exact absurd (Prod.mk.inj heq).2.symm (hno _)
    · rename_i heq
      obtain ⟨rfl, hr⟩ := Prod.mk.inj heq
      cases hr
      simp only [takeDigits_digitText ds hd]
      rfl
    · rename_i hno heq
      exact absurd (Prod.mk.inj heq).2.symm (hno _)

/-- The suffix that the parsers see: an exponent belongs to the number. -/
def Suffix.name : Suffix → List Char
  | .binary unit => unit.text
  | .decimal unit => unit.text
  | .exponent .. => []

/-- The exponent that the parsers see. -/
def Suffix.exp : Suffix → Int
  | .exponent _ sign digits _ => signed sign (digitsNumber digits)
  | _ => 0

theorem signed_eq (sign : Sign) (n : Int) :
    (if (sign == some true) = true then -n else n) = signed sign n := by
  match sign with
  | none => rfl
  | some true => rfl
  | some false => rfl

theorem takeExponent_text (suffix : Suffix) :
    takeExponent suffix.text = (suffix.exp, suffix.name) := by
  cases suffix with
  | binary unit => cases unit <;> rfl
  | decimal unit => cases unit <;> rfl
  | exponent upper sign digits hne =>
    have hletter : (if upper then 'E' else 'e') = 'e' ∨ (if upper then 'E' else 'e') = 'E' := by
      cases upper
      · exact .inl rfl
      · exact .inr rfl
    have hdigits : takeDigits (digitText digits) = (digits.map Fin.val, []) := by
      have hend : NoDigit [] := fun c hc => by cases hc
      simpa using takeDigits_digitText digits hend
    have hds : digits.map Fin.val ≠ [] := map_val_ne_nil hne
    simp only [Suffix.text, takeExponent, if_pos hletter, takeSign_digitText, hdigits, Suffix.exp,
      Suffix.name, ← signed_eq]
    rfl

theorem isSuffix_name (suffix : Suffix) : isSuffix suffix.name = true := by
  cases suffix with
  | binary unit => cases unit <;> rfl
  | decimal unit => cases unit <;> rfl
  | exponent _ _ _ _ => rfl

/-- The suffix does not start with a digit or a point. -/
theorem suffix_head (suffix : Suffix) :
    ∀ c ∈ suffix.text.head?, decimalValue c = none ∧ c ≠ '.' ∧ isSpace c = false := by
  cases suffix with
  | binary unit => cases unit <;> (rintro c ⟨⟩; decide)
  | decimal unit => cases unit <;> (rintro c ⟨⟩ <;> decide)
  | exponent upper _ _ _ => cases upper <;> (rintro c ⟨⟩; decide)

theorem isSpace_digitText (ds : List (Fin 10)) : ∀ c ∈ digitText ds, isSpace c = false := by
  have h : ∀ d : Fin 10, isSpace (Nat.digitChar d) = false := by decide
  intro c hc
  obtain ⟨d, -, rfl⟩ := List.mem_map.mp hc
  exact h d

/-- A text without spaces, from its evaluation. -/
theorem noSpace_of_all {t : List Char} (h : (t.all fun c => !isSpace c) = true) :
    ∀ c ∈ t, isSpace c = false := by
  simpa using h

theorem isSpace_signText (sign : Sign) : ∀ c ∈ signText sign, isSpace c = false := by
  match sign with
  | none => exact noSpace_of_all rfl
  | some true => exact noSpace_of_all rfl
  | some false => exact noSpace_of_all rfl

theorem isSpace_suffix (suffix : Suffix) : ∀ c ∈ suffix.text, isSpace c = false := by
  cases suffix with
  | binary unit => cases unit <;> exact noSpace_of_all rfl
  | decimal unit => cases unit <;> exact noSpace_of_all rfl
  | exponent upper sign digits _ =>
    refine List.forall_mem_cons.mpr ⟨by cases upper <;> rfl, fun c hc => ?_⟩
    exact (List.mem_append.mp hc).elim (isSpace_signText sign c) (isSpace_digitText digits c)

theorem isSpace_fracText (frac : Option (List (Fin 10))) :
    ∀ c ∈ fracText frac, isSpace c = false := by
  cases frac with
  | none => exact fun c hc => absurd hc List.not_mem_nil
  | some ds => exact List.forall_mem_cons.mpr ⟨by decide, isSpace_digitText ds⟩

/-- A text without spaces is not stripped. -/
theorem strip_of_noSpace {cs : List Char} (h : ∀ c ∈ cs, isSpace c = false) :
    strip (String.ofList cs) = String.ofList cs := by
  have hdrop : ∀ ds : List Char, (∀ c ∈ ds, isSpace c = false) → ds.dropWhile isSpace = ds := by
    intro ds hds
    cases ds with
    | nil => rfl
    | cons c ds => exact List.dropWhile_cons_of_neg (by simp [hds c List.mem_cons_self])
  rw [strip, String.toList_ofList, stripChars, hdrop cs h,
    hdrop cs.reverse fun c hc => h c (List.mem_reverse.mp hc), List.reverse_reverse]

theorem strip_render (q : Quantity) : strip q.render = q.render := by
  refine strip_of_noSpace fun c hc => ?_
  simp only [List.mem_append] at hc
  rcases hc with hc | hc | hc | hc
  · exact isSpace_signText _ c hc
  · exact isSpace_digitText _ c hc
  · exact isSpace_fracText _ c hc
  · exact isSpace_suffix _ c hc

/-- The exponent of the last digit of a quantity. -/
def Quantity.lastDigit (q : Quantity) : Int := q.suffix.exp - (q.frac.getD []).length

/-- A quantity is split into its number and its suffix. -/
theorem parseQuantity_render (q : Quantity) : parseQuantity q.render =
    (decimalOf (q.sign == some true) (digitsNumber q.digits) q.lastDigit).map fun number =>
      (number, String.ofList q.suffix.name) := by
  have hsign : takeSign (signText q.sign ++ (digitText q.int ++
      (fracText q.frac ++ q.suffix.text))) = (q.sign == some true,
        digitText q.int ++ (fracText q.frac ++ q.suffix.text)) := by
    refine takeSign_signText _ fun c hc => ?_
    cases hi : q.int with
    | cons d ds =>
      rw [hi] at hc
      cases hc
      exact digitChar_ne_sign d
    | nil =>
      cases hf : q.frac with
      | none => exact absurd q.nonempty (by simp [hi, hf])
      | some ds =>
        rw [hi, hf] at hc
        cases hc
        decide
  have hmantissa : takeMantissa (digitText q.int ++ (fracText q.frac ++ q.suffix.text)) =
      some (q.int.map Fin.val, (q.frac.getD []).map Fin.val, q.suffix.text) :=
    takeMantissa_text q (fun c hc => (suffix_head _ c hc).1) fun c hc => (suffix_head _ c hc).2.1
  have hdigits : digitsValue (q.int.map Fin.val ++ (q.frac.getD []).map Fin.val) =
      digitsNumber q.digits := by
    rw [digitsNumber, Quantity.digits, List.map_append]
  unfold parseQuantity
  rw [strip_render]
  simp only [Quantity.render, String.toList_ofList, hsign, hmantissa, takeExponent_text,
    isSuffix_name, if_true, hdigits, List.length_map]
  rfl

/-! ## The factors -/

/-- What a suffix that is no exponent multiplies the number with. -/
def Suffix.unit : Suffix → ℚ
  | .binary unit => 1024 ^ unit.power
  | .decimal unit => 1000 ^ unit.power
  | .exponent .. => 1

/-- The suffix is in the table of `_parse_cpu`. -/
def Suffix.inCpuTable : Suffix → Bool
  | .decimal .nano | .decimal .micro | .decimal .milli | .decimal .one | .decimal .kilo => true
  | .exponent .. => true
  | _ => false

/-- The suffix is in the table of `_parse_memory_mb`. -/
def Suffix.inMemoryTable : Suffix → Bool
  | .decimal .nano | .decimal .micro | .decimal .milli => false
  | _ => true

theorem cpuFactors_lookup (suffix : Suffix) : cpuFactors.lookup (String.ofList suffix.name) =
    if suffix.inCpuTable then some (suffix.unit * 1000) else none := by
  cases suffix with
  | binary unit => cases unit <;> rfl
  | exponent _ _ _ _ => simp [Suffix.name, cpuFactors, Suffix.inCpuTable, Suffix.unit]
  | decimal unit =>
    cases unit <;>
      simp [Suffix.name, DecimalUnit.text, Suffix.inCpuTable, Suffix.unit, DecimalUnit.power,
        cpuFactors, List.lookup_cons] <;> norm_num

theorem bytesPerUnit_lookup (suffix : Suffix) : bytesPerUnit.lookup (String.ofList suffix.name) =
    if suffix.inMemoryTable then some suffix.unit else none := by
  cases suffix with
  | binary unit =>
    cases unit <;>
      simp [Suffix.name, BinaryUnit.text, Suffix.inMemoryTable, Suffix.unit, BinaryUnit.power,
        bytesPerUnit, List.lookup_cons]
  | exponent _ _ _ _ =>
    simp [Suffix.name, bytesPerUnit, Suffix.inMemoryTable, Suffix.unit, List.lookup_cons]
  | decimal unit =>
    cases unit <;>
      simp [Suffix.name, DecimalUnit.text, Suffix.inMemoryTable, Suffix.unit, DecimalUnit.power,
        bytesPerUnit, List.lookup_cons]

/-- The factors of `_parse_cpu` are powers of ten. -/
theorem cpuFactor_power {suffix : Suffix} (h : suffix.inCpuTable = true) :
    ∃ j : Int, suffix.unit * 1000 = 10 ^ j := by
  cases suffix with
  | binary _ => cases h
  | exponent _ _ _ _ => exact ⟨3, by norm_num [Suffix.unit]⟩
  | decimal unit =>
    refine ⟨3 * unit.power + 3, ?_⟩
    rw [zpow_add₀ (by norm_num), zpow_mul]
    norm_num [Suffix.unit]

/-- The sizes of the units. -/
theorem unit_bounds (suffix : Suffix) :
    (10 : ℚ) ^ (-9 : Int) ≤ suffix.unit ∧ suffix.unit ≤ 10 ^ (19 : Int) := by
  cases suffix with
  | binary unit => cases unit <;> norm_num [Suffix.unit, BinaryUnit.power]
  | decimal unit => cases unit <;> norm_num [Suffix.unit, DecimalUnit.power]
  | exponent _ _ _ _ => norm_num [Suffix.unit]

theorem multiplier_eq (suffix : Suffix) :
    suffix.multiplier = 10 ^ suffix.exp * suffix.unit := by
  cases suffix <;> simp [Suffix.multiplier, Suffix.exp, Suffix.unit]

/-! ## The number of a quantity -/

section number

variable {q : Quantity}

/-- The digits of a quantity as a number. -/
def Quantity.mantissa (q : Quantity) : Nat := digitsNumber q.digits

theorem value_signed (q : Quantity) :
    q.value = (if q.sign = some true then -1 else 1) *
      (q.mantissa * 10 ^ q.lastDigit * q.suffix.unit) := by
  have hs : ((signed q.sign q.mantissa : Int) : ℚ) =
      (if q.sign = some true then -1 else 1) * q.mantissa := by
    unfold signed
    split <;> simp
  rw [Quantity.value, multiplier_eq, Quantity.lastDigit, zpow_sub₀ (by norm_num), zpow_natCast,
    ← Quantity.mantissa, hs]
  ring

theorem number_nonneg (q : Quantity) :
    (0 : ℚ) ≤ q.mantissa * 10 ^ q.lastDigit * q.suffix.unit := by
  have hu : (0 : ℚ) < q.suffix.unit :=
    lt_of_lt_of_le (ten_zpow_pos _) (unit_bounds q.suffix).1
  exact mul_nonneg (mul_nonneg (Nat.cast_nonneg _) (ten_zpow_pos _).le) hu.le

/-- A quantity with a minus that is not negative is zero. -/
theorem mantissa_of_minus (h : 0 ≤ q.value) (hs : q.sign = some true) : q.mantissa = 0 := by
  have hn := number_nonneg q
  rw [value_signed, if_pos hs] at h
  have h0 : (q.mantissa * 10 ^ q.lastDigit * q.suffix.unit : ℚ) = 0 := by linarith
  have hu : (0 : ℚ) < q.suffix.unit := lt_of_lt_of_le (ten_zpow_pos _) (unit_bounds q.suffix).1
  simpa [hu.ne', (ten_zpow_pos q.lastDigit).ne'] using h0

theorem value_eq (h : 0 ≤ q.value) :
    q.value = q.mantissa * 10 ^ q.lastDigit * q.suffix.unit := by
  rw [value_signed]
  split
  · rename_i hs
    simp [mantissa_of_minus h hs]
  · rw [one_mul]

/-- The number is inside the limits of the library. -/
def Quantity.Fits (q : Quantity) : Prop :=
  minEtiny ≤ q.lastDigit ∧ q.lastDigit + Nat.log 10 q.mantissa ≤ maxEmax

theorem parseQuantity_fits (h : 0 ≤ q.value) (hf : q.Fits) : parseQuantity q.render =
    some ((q.mantissa * 10 ^ q.lastDigit : ℚ), String.ofList q.suffix.name) := by
  have hd : decimalOf (q.sign == some true) q.mantissa q.lastDigit =
      some (q.mantissa * 10 ^ q.lastDigit : ℚ) := by
    rw [decimalOf, if_pos (show minEtiny ≤ _ ∧ _ from hf)]
    split
    · rename_i hs
      simp [mantissa_of_minus h (by simpa using hs)]
    · rw [one_mul]
  rw [parseQuantity_render, ← Quantity.mantissa, hd, Option.map_some]

theorem parseQuantity_not_fits (hf : ¬ q.Fits) : parseQuantity q.render = none := by
  have hd : decimalOf (q.sign == some true) q.mantissa q.lastDigit = none := if_neg hf
  rw [parseQuantity_render, ← Quantity.mantissa, hd, Option.map_none]

/-- A number outside the limits is tiny, or larger than every number of the context. -/
theorem not_fits (h : 0 ≤ q.value) (hm : q.mantissa < 10 ^ 28) (hf : ¬ q.Fits) :
    q.value < 1 / 10000 ∨ 2 * contextLimit ≤ q.value := by
  have hu := unit_bounds q.suffix
  have hu0 : (0 : ℚ) < q.suffix.unit := lt_of_lt_of_le (ten_zpow_pos _) hu.1
  rw [value_eq h]
  rcases Nat.eq_zero_or_pos q.mantissa with h0 | hpos
  · left
    simp [h0]
  · simp only [Quantity.Fits, not_and_or, not_le] at hf
    rcases hf with hf | hf
    · left
      have hm' : (q.mantissa : ℚ) ≤ 10 ^ (28 : Int) := by exact_mod_cast hm.le
      calc (q.mantissa * 10 ^ q.lastDigit * q.suffix.unit : ℚ)
          ≤ 10 ^ (28 : Int) * 10 ^ q.lastDigit * 10 ^ (19 : Int) :=
            mul_le_mul (mul_le_mul_of_nonneg_right hm' (ten_zpow_pos _).le) hu.2 hu0.le
              (mul_nonneg (ten_zpow_pos _).le (ten_zpow_pos _).le)
        _ = 10 ^ (28 + q.lastDigit + 19) := by
            rw [zpow_add₀ (by norm_num), zpow_add₀ (by norm_num)]
        _ ≤ 10 ^ (-5 : Int) := zpow_le_zpow_right₀ (by norm_num) (by
            simp only [minEtiny] at hf
            omega)
        _ < 1 / 10000 := by norm_num
    · right
      have hlog : (10 : ℚ) ^ (Nat.log 10 q.mantissa : Int) ≤ q.mantissa := by
        rw [zpow_natCast]
        exact_mod_cast Nat.pow_log_le_self 10 hpos.ne'
      have hlimit : contextLimit = 10 ^ ((contextEmax + 1 : Nat) : Int) := by
        rw [zpow_natCast]
        rfl
      calc 2 * contextLimit
          ≤ 10 ^ (1 : Int) * 10 ^ ((contextEmax + 1 : Nat) : Int) := by
            rw [hlimit]
            exact mul_le_mul_of_nonneg_right (by norm_num) (ten_zpow_pos _).le
        _ = 10 ^ (1 + ((contextEmax + 1 : Nat) : Int)) := by rw [zpow_add₀ (by norm_num)]
        _ ≤ 10 ^ (Nat.log 10 q.mantissa + q.lastDigit + -9) :=
            zpow_le_zpow_right₀ (by norm_num) (by
              simp only [maxEmax, contextEmax] at *
              push_cast
              omega)
        _ = 10 ^ (Nat.log 10 q.mantissa : Int) * 10 ^ q.lastDigit * 10 ^ (-9 : Int) := by
            rw [zpow_add₀ (by norm_num), zpow_add₀ (by norm_num)]
        _ ≤ q.mantissa * 10 ^ q.lastDigit * q.suffix.unit :=
            mul_le_mul (mul_le_mul_of_nonneg_right hlog (ten_zpow_pos _).le) hu.1
              (ten_zpow_pos _).le (mul_nonneg (Nat.cast_nonneg _) (ten_zpow_pos _).le)

end number

/-! ## The results of the parsers -/

section results

variable (q : Quantity)

/-- `_parse_cpu` returns the value in millicores, rounded half up. -/
def Quantity.CpuRight : Prop := parseCpu q.render = .ok (halfUp (q.value * 1000))

/-- `_parse_memory_mb` returns the value in MiB, rounded half up. -/
def Quantity.MemoryRight : Prop := parseMemoryMb q.render = .ok (halfUp (q.value / 1024 ^ 2))

/-- The suffix is in the table and the value is a number of the context, or the value rounds to
0. -/
def Quantity.CpuKept : Prop :=
  q.value * 1000 < 1 / 2 ∨ q.suffix.inCpuTable = true ∧ q.value * 1000 < contextLimit

/-- The value in MiB after two roundings to 28 digits, of the bytes and of the quotient. -/
def Quantity.mib28 : ℚ := roundContext (roundContext q.value / 1024 ^ 2)

/-- The suffix is in the table, the bytes are a number of the context, and no half lies between the
value and its 28 digits; or the suffix is not in the table and the value rounds to 0. -/
def Quantity.MemoryKept : Prop :=
  if q.suffix.inMemoryTable then
    roundContext q.value < contextLimit ∧
      ∀ k : Int, (k + 1 / 2 ≤ q.mib28 ↔ k + 1 / 2 ≤ q.value / 1024 ^ 2)
  else q.value / 1024 ^ 2 < 1 / 2

variable {q}

theorem halfUp_eq {x : ℚ} (h : 0 ≤ x) : halfUp x = decimalToInt x :=
  (decimalToInt_of_nonneg h).symm

theorem max_decimalToInt {x : ℚ} (h : 0 ≤ x) : max 0 (decimalToInt x) = decimalToInt x := by
  rw [decimalToInt_of_nonneg h]
  exact max_eq_right (Int.floor_nonneg.mpr (by linarith))

/-- The result 0 is right exactly when the value rounds to 0. -/
theorem zero_right_iff {x : ℚ} (h : 0 ≤ x) :
    (Except.ok 0 : Except PyExc Int) = .ok (halfUp x) ↔ x < 1 / 2 := by
  rw [Except.ok.injEq, halfUp_eq h, eq_comm, decimalToInt_eq_zero_iff h]

theorem parseCpu_known (h : 0 ≤ q.value) (hf : q.Fits) (hk : q.suffix.inCpuTable = true) :
    parseCpu q.render =
      (decimalResult (q.value * 1000)).map fun x => max 0 (decimalToInt x) := by
  have hl := cpuFactors_lookup q.suffix
  rw [if_pos hk] at hl
  unfold parseCpu
  rw [parseQuantity_fits h hf]
  simp only [hl]
  rw [decimalMul, value_eq h, mul_assoc _ _ (1000 : ℚ)]

theorem parseCpu_zero (h : 0 ≤ q.value) (hz : ¬ (q.Fits ∧ q.suffix.inCpuTable = true)) :
    parseCpu q.render = .ok 0 := by
  unfold parseCpu
  by_cases hf : q.Fits
  · have hl := cpuFactors_lookup q.suffix
    rw [if_neg fun hk => hz ⟨hf, hk⟩] at hl
    simp only [parseQuantity_fits h hf, hl]
  · simp only [parseQuantity_not_fits hf]

/-- The product of `_parse_cpu` is exact, or tiny. -/
theorem cpu_product (h : 0 ≤ q.value) (hm : q.mantissa < 10 ^ 28)
    (hk : q.suffix.inCpuTable = true) :
    roundContext (q.value * 1000) = q.value * 1000 ∨ q.value * 1000 < 1 / 10 := by
  obtain ⟨j, hj⟩ := cpuFactor_power hk
  have hv : q.value * 1000 = q.mantissa * 10 ^ (q.lastDigit + j) := by
    rw [value_eq h, mul_assoc, hj, zpow_add₀ (by norm_num), mul_assoc]
  rw [hv]
  by_cases he : contextEtiny ≤ q.lastDigit + j
  · exact .inl (roundContext_exact hm he)
  · right
    have hm' : (q.mantissa : ℚ) ≤ 10 ^ (28 : Int) := by exact_mod_cast hm.le
    calc (q.mantissa * 10 ^ (q.lastDigit + j) : ℚ)
        ≤ 10 ^ (28 : Int) * 10 ^ (q.lastDigit + j) :=
          mul_le_mul_of_nonneg_right hm' (ten_zpow_pos _).le
      _ = 10 ^ (28 + (q.lastDigit + j)) := by rw [← zpow_add₀ (by norm_num)]
      _ ≤ 10 ^ (-2 : Int) := zpow_le_zpow_right₀ (by norm_num) (by
          simp only [contextEtiny] at he
          omega)
      _ < 1 / 10 := by norm_num

theorem cpuRight_iff (h : 0 ≤ q.value) (hm : q.mantissa < 10 ^ 28) :
    q.CpuRight ↔ q.CpuKept := by
  have hv : 0 ≤ q.value * 1000 := mul_nonneg h (by norm_num)
  have hlimit := contextLimit_ge
  unfold Quantity.CpuRight Quantity.CpuKept
  by_cases hz : q.Fits ∧ q.suffix.inCpuTable = true
  · obtain ⟨hf, hk⟩ := hz
    rw [parseCpu_known h hf hk]
    rcases cpu_product h hm hk with hexact | htiny
    · by_cases hlt : q.value * 1000 < contextLimit
      · rw [decimalResult_of_lt hv (by rwa [hexact])]
        simp only [Except.map, hexact, max_decimalToInt hv, halfUp_eq hv, true_iff]
        exact .inr ⟨hk, hlt⟩
      · rw [decimalResult_of_le hv (by rw [hexact]; exact not_lt.mp hlt)]
        simp only [Except.map, reduceCtorEq, false_iff, not_or, not_and]
        exact ⟨by linarith, fun _ => hlt⟩
    · have hround := roundContext_lt_half hv htiny
      have hr0 := roundContext_nonneg hv
      rw [decimalResult_of_lt hv (by linarith)]
      have hhalf : q.value * 1000 < 1 / 2 := by linarith
      simp only [Except.map, halfUp_eq hv, (decimalToInt_eq_zero_iff hr0).mpr hround,
        (decimalToInt_eq_zero_iff hv).mpr hhalf, max_self, true_iff]
      exact .inl hhalf
  · rw [parseCpu_zero h hz, zero_right_iff hv]
    refine ⟨.inl, fun hc => hc.elim id fun ⟨hk, hlt⟩ => ?_⟩
    rcases not_fits h hm (fun hf => hz ⟨hf, hk⟩) with hs | hb
    · linarith
    · linarith

theorem parseMemoryMb_known (h : 0 ≤ q.value) (hf : q.Fits)
    (hk : q.suffix.inMemoryTable = true) : parseMemoryMb q.render = (do
      let bytes ← decimalResult q.value
      let mib ← decimalResult (bytes / 1024 ^ 2)
      pure (max 0 (decimalToInt mib))) := by
  have hl := bytesPerUnit_lookup q.suffix
  rw [if_pos hk] at hl
  unfold parseMemoryMb
  rw [parseQuantity_fits h hf]
  simp only [hl]
  rw [decimalMul, ← value_eq h]
  rfl

theorem parseMemoryMb_zero (h : 0 ≤ q.value) (hz : ¬ (q.Fits ∧ q.suffix.inMemoryTable = true)) :
    parseMemoryMb q.render = .ok 0 := by
  unfold parseMemoryMb
  by_cases hf : q.Fits
  · have hl := bytesPerUnit_lookup q.suffix
    rw [if_neg fun hk => hz ⟨hf, hk⟩] at hl
    simp only [parseQuantity_fits h hf, hl]
  · simp only [parseQuantity_not_fits hf]

theorem mib28_nonneg (h : 0 ≤ q.value) : 0 ≤ q.mib28 :=
  roundContext_nonneg (div_nonneg (roundContext_nonneg h) (by norm_num))

/-- The quotient of a number of the context is one. -/
theorem mib28_lt (h : 0 ≤ q.value) (hlt : roundContext q.value < contextLimit) :
    q.mib28 < contextLimit := by
  have hlimit := contextLimit_ge
  have hr := roundContext_nonneg h
  have hd : 0 ≤ roundContext q.value / 1024 ^ 2 := div_nonneg hr (by norm_num)
  have hle : roundContext q.value / 1024 ^ 2 < contextLimit / 4 := by
    rw [div_lt_iff₀ (by norm_num)]
    linarith
  have hunit := lastUnit_le hd
  have hround := (roundContext_bounds (roundContext q.value / 1024 ^ 2)).2
  rw [Quantity.mib28]
  rcases max_cases (roundContext q.value / 1024 ^ 2) 1 with ⟨he, -⟩ | ⟨he, -⟩ <;>
    rw [he] at hunit <;> linarith

/-- The value of a tiny quantity is kept. -/
theorem memory_tiny (h : 0 ≤ q.value) (ht : q.value < 1 / 10) :
    roundContext q.value < contextLimit ∧
      ∀ k : Int, (k + 1 / 2 ≤ q.mib28 ↔ k + 1 / 2 ≤ q.value / 1024 ^ 2) := by
  have hlimit := contextLimit_ge
  have hround := roundContext_lt_half h ht
  have hr := roundContext_nonneg h
  have hv : 0 ≤ q.value / 1024 ^ 2 := div_nonneg h (by norm_num)
  have hd : roundContext q.value / 1024 ^ 2 < 1 / 10 := by
    rw [div_lt_iff₀ (by norm_num)]
    linarith
  have hmib : q.mib28 < 1 / 2 := roundContext_lt_half (div_nonneg hr (by norm_num)) hd
  have hval : q.value / 1024 ^ 2 < 1 / 2 := by
    rw [div_lt_iff₀ (by norm_num)]
    linarith
  refine ⟨by linarith, (decimalToInt_eq_iff (mib28_nonneg h) hv).mp ?_⟩
  rw [(decimalToInt_eq_zero_iff (mib28_nonneg h)).mpr hmib,
    (decimalToInt_eq_zero_iff hv).mpr hval]

theorem memoryRight_iff (h : 0 ≤ q.value) (hm : q.mantissa < 10 ^ 28) :
    q.MemoryRight ↔ q.MemoryKept := by
  have hv : 0 ≤ q.value / 1024 ^ 2 := div_nonneg h (by norm_num)
  have hlimit := contextLimit_ge
  unfold Quantity.MemoryRight Quantity.MemoryKept
  by_cases hk : q.suffix.inMemoryTable = true
  · rw [if_pos hk]
    by_cases hf : q.Fits
    · rw [parseMemoryMb_known h hf hk]
      by_cases hlt : roundContext q.value < contextLimit
      · have hd : 0 ≤ roundContext q.value / 1024 ^ 2 :=
          div_nonneg (roundContext_nonneg h) (by norm_num)
        have hq : decimalResult (roundContext q.value / 1024 ^ 2) = .ok q.mib28 :=
          decimalResult_of_lt hd (mib28_lt h hlt)
        have hiff := decimalToInt_eq_iff (mib28_nonneg h) hv
        simp only [decimalResult_of_lt h hlt, hq, bind, Except.bind, pure, Except.pure,
          max_decimalToInt (mib28_nonneg h), halfUp_eq hv, Except.ok.injEq, hiff, hlt, true_and]
      · rw [decimalResult_of_le h (not_lt.mp hlt)]
        simp only [bind, Except.bind, reduceCtorEq, false_iff, not_and]
        exact fun hlt' => absurd hlt' hlt
    · rw [parseMemoryMb_zero h fun hz => hf hz.1, zero_right_iff hv]
      rcases not_fits h hm hf with hs | hb
      · have hhalf : q.value / 1024 ^ 2 < 1 / 2 := by
          rw [div_lt_iff₀ (by norm_num)]
          linarith
        exact ⟨fun _ => memory_tiny h (by linarith), fun _ => hhalf⟩
      · -- The value is so large that its rounding overflows, and it does not round to 0.
        have hround := (roundContext_bounds q.value).1
        have hunit := lastUnit_le h
        rw [max_eq_left (by linarith)] at hunit
        refine ⟨fun hs => ?_, fun hs => ?_⟩
        · rw [div_lt_iff₀ (by norm_num)] at hs
          linarith
        · linarith [hs.1]
  · rw [if_neg hk, parseMemoryMb_zero h fun hz => hk hz.2, zero_right_iff hv]

/-- For a quantity whose digits fit the precision, the parsers return its value in millicores and in
MiB, each rounded half up, exactly when the value is kept. -/
theorem parsed_iff (q : Quantity) (h : 0 ≤ q.value) (hm : q.mantissa < 10 ^ 28) :
    q.CpuRight ∧ q.MemoryRight ↔ q.CpuKept ∧ q.MemoryKept :=
  and_congr (cpuRight_iff h hm) (memoryRight_iff h hm)

/-- The bytes and the quotient of a short quantity are exact, so nothing is lost. -/
theorem memory_short {c : Nat} {e : Int} (hv : q.value = c * 10 ^ e)
    (hc : c * 5 ^ 20 < 10 ^ 28) (he : contextEtiny + 20 ≤ e) :
    q.mib28 = q.value / 1024 ^ 2 := by
  have hbytes : roundContext (c * 10 ^ e) = c * 10 ^ e :=
    roundContext_exact (lt_of_le_of_lt (Nat.le_mul_of_pos_right c (by norm_num)) hc) (by omega)
  have hquot : (c * 10 ^ e / 1024 ^ 2 : ℚ) = (c * 5 ^ 20 : Nat) * 10 ^ (e - 20) := by
    rw [zpow_sub₀ (by norm_num)]
    push_cast
    norm_num
    ring
  rw [Quantity.mib28, hv, hbytes, hquot]
  exact roundContext_exact hc (by omega)

end results

/-! ## Sample quantities -/

/-- `128974848000m`, the same memory as `123Mi`. -/
def milliMemory : Quantity where
  sign := none
  int := [1, 2, 8, 9, 7, 4, 8, 4, 8, 0, 0, 0]
  frac := none
  nonempty := .inl (by simp)
  suffix := .decimal .milli

theorem milliMemory_value : milliMemory.value = 128974848 := by
  have hd : digitsNumber milliMemory.digits = 128974848000 := by rfl
  have hm : milliMemory.suffix.multiplier = 1000 ^ (-1 : Int) := rfl
  have hs : signed milliMemory.sign 128974848000 = 128974848000 := rfl
  have hf : milliMemory.frac = none := rfl
  rw [Quantity.value, hd, hm, Nat.cast_ofNat, hs, hf]
  norm_num

/-- A suffix that only the other parser has: 123 MiB are read as 0. -/
theorem milli_memory_zero : ¬ ∀ q : Quantity, 0 ≤ q.value → q.mantissa < 10 ^ 28 →
    q.CpuRight ∧ q.MemoryRight := by
  intro hall
  have hv := milliMemory_value
  have h0 : 0 ≤ milliMemory.value := by rw [hv]; norm_num
  have hright := (hall milliMemory h0 (by decide +kernel)).2
  have hzero := (parseMemoryMb_zero h0 (fun hz => by cases hz.2)).symm.trans hright
  rw [hv] at hzero
  norm_num [halfUp] at hzero

/-- `2097152`. -/
def plainMemory : Quantity where
  sign := none
  int := [2, 0, 9, 7, 1, 5, 2]
  frac := none
  nonempty := .inl (by simp)
  suffix := .decimal .one

theorem plainMemory_value : plainMemory.value = (2097152 : Nat) * 10 ^ (0 : Int) := by
  have hd : digitsNumber plainMemory.digits = 2097152 := by rfl
  have hm : plainMemory.suffix.multiplier = 1000 ^ (0 : Int) := rfl
  have hs : signed plainMemory.sign 2097152 = 2097152 := rfl
  have hf : plainMemory.frac = none := rfl
  rw [Quantity.value, hd, hm, Nat.cast_ofNat, hs, hf]
  norm_num

/-- Both parsers read it right. -/
theorem plainMemory_parsed : plainMemory.CpuRight ∧ plainMemory.MemoryRight := by
  have hv := plainMemory_value
  have hlimit := contextLimit_ge
  have h0 : 0 ≤ plainMemory.value := by rw [hv]; norm_num
  have hround : roundContext plainMemory.value = plainMemory.value := by
    rw [hv]
    exact roundContext_exact (by norm_num) (by decide)
  have hmib : plainMemory.mib28 = plainMemory.value / 1024 ^ 2 :=
    memory_short hv (by norm_num) (by decide)
  refine (parsed_iff plainMemory h0 (by decide +kernel)).mpr ⟨.inr ⟨rfl, ?_⟩, ?_⟩
  · rw [hv]
    norm_num
    linarith
  · rw [Quantity.MemoryKept, if_pos (show plainMemory.suffix.inMemoryTable = true from rfl), hround,
      hmib]
    refine ⟨?_, fun _ => Iff.rfl⟩
    rw [hv]
    norm_num
    linarith

end Tools
end AutoSRE
