import AutoSRE.Lib.JsonText
import AutoSRE.Python.Text

/-!
# Python's `json.loads`

A reader of JSON texts with Python's two failures: `JSONDecodeError`, and the plain `ValueError` of
an integer that `int` refuses for its length, raised where the integer stands and so before any
error after it. The value is the document: the `dict`, `list`, `int` and `float` are made of it.

* `loads_of_denotes`: a text of the grammar is read, when `int` takes its integers.
* `loads_object`: an object at the start of a text is read, and is the value if the text ends there.
* `loads_prose`: a text that has a brace, but does not start with a bracket or a brace, is read only
  as a string, with no line break before the brace.
-/

namespace AutoSRE
namespace Py

open Lib.JsonText

/-- An exception of `json.loads`. -/
inductive LoadsError where
  /-- `json.JSONDecodeError`. -/
  | decode
  /-- Another `ValueError`. -/
  | value (msg : String)
  deriving DecidableEq

/-! ## Numbers -/

/-- The integer part of a number, and what follows it. -/
def matchInt : List Char → Option (List Char × List Char)
  | '0' :: t => some (['0'], t)
  | t =>
    if t.takeWhile Char.isDigit = [] then none
    else some (t.takeWhile Char.isDigit, t.dropWhile Char.isDigit)

/-- The fraction, if there is one. -/
def matchFraction : List Char → List Char × List Char
  | '.' :: t =>
    if t.takeWhile Char.isDigit = [] then ([], '.' :: t)
    else ('.' :: t.takeWhile Char.isDigit, t.dropWhile Char.isDigit)
  | t => ([], t)

/-- The sign of an exponent. -/
def matchSign : List Char → List Char × List Char
  | '+' :: t => (['+'], t)
  | '-' :: t => (['-'], t)
  | t => ([], t)

/-- The exponent, if there is one. -/
def matchExponent : List Char → List Char × List Char
  | [] => ([], [])
  | e :: t =>
    if (e = 'e' ∨ e = 'E') ∧ (matchSign t).2.takeWhile Char.isDigit ≠ [] then
      (e :: ((matchSign t).1 ++ (matchSign t).2.takeWhile Char.isDigit),
        (matchSign t).2.dropWhile Char.isDigit)
    else ([], e :: t)

/-- A number without a sign, and what follows it. -/
def matchUnsigned (t : List Char) : Option (List Char × List Char) :=
  (matchInt t).map fun i =>
    let f := matchFraction i.2
    let e := matchExponent f.2
    (i.1 ++ (f.1 ++ e.1), e.2)

/-- `_match_number_unicode`: the longest number at the start of a text. -/
def matchNumber : List Char → Option (List Char × List Char)
  | '-' :: t => (matchUnsigned t).map fun r => ('-' :: r.1, r.2)
  | t => matchUnsigned t

/-- `int` takes the literal; one with a fraction or an exponent is for `float`. -/
def literalFits (literal : List Char) : Bool :=
  literal.any (fun c => !c.isDigit && c != '-') ||
    (literal.filter Char.isDigit).length ≤ intMaxStrDigits

/-- What `int` says of a literal that is too long. -/
def digitsMessage (literal : List Char) : String :=
  "Exceeds the limit (4300 digits) for integer string conversion: value has " ++
    toString (literal.filter Char.isDigit).length ++
    " digits; use sys.set_int_max_str_digits() to increase the limit"

/-- The constants of Python's dialect. -/
def jsonConstants : List (List Char) :=
  [['N', 'a', 'N'], ['I', 'n', 'f', 'i', 'n', 'i', 't', 'y'],
    ['-', 'I', 'n', 'f', 'i', 'n', 'i', 't', 'y']]

/-- A constant or a number at the start of a text. -/
def loadNumber (t : List Char) : Except LoadsError (Doc × List Char) :=
  match jsonConstants.find? (·.isPrefixOf t), matchNumber t with
  | some literal, _ => .ok (.number literal, t.drop literal.length)
  | none, none => .error .decode
  | none, some (literal, rest) =>
    if literalFits literal then .ok (.number literal, rest)
    else .error (.value (digitsMessage literal))

/-! ## The reader -/

/-- Items up to the closing bracket. -/
def loadItems (value : List Char → Except LoadsError (Doc × List Char)) :
    Nat → List Char → Except LoadsError (List Doc × List Char)
  | 0, _ => .error .decode
  | n + 1, t =>
    match value (skip t) with
    | .error e => .error e
    | .ok (v, rest) =>
      match skip rest with
      | ',' :: rest => (loadItems value n rest).map fun r => (v :: r.1, r.2)
      | ']' :: rest => .ok ([v], rest)
      | _ => .error .decode

/-- Members up to the closing brace. -/
def loadMembers (value : List Char → Except LoadsError (Doc × List Char)) :
    Nat → List Char → Except LoadsError (List (List Nat × Doc) × List Char)
  | 0, _ => .error .decode
  | n + 1, t =>
    match readKey t with
    | none => .error .decode
    | some (k, rest) =>
      match value (skip rest) with
      | .error e => .error e
      | .ok (v, rest) =>
        match skip rest with
        | ',' :: rest => (loadMembers value n rest).map fun r => ((k, v) :: r.1, r.2)
        | '}' :: rest => .ok ([(k, v)], rest)
        | _ => .error .decode

/-- `scan_once`: the value at the start of a text, and what follows it. The first argument bounds
the nesting. -/
def scanOnce : Nat → List Char → Except LoadsError (Doc × List Char)
  | 0, _ => .error .decode
  | n + 1, t =>
    match t with
    | '"' :: rest =>
      match readChars rest with
      | none => .error .decode
      | some r => .ok (.string r.1, r.2)
    | '[' :: rest =>
      match skip rest with
      | ']' :: rest => .ok (.array [], rest)
      | _ => (loadItems (scanOnce n) n rest).map fun r => (.array r.1, r.2)
    | '{' :: rest =>
      match skip rest with
      | '}' :: rest => .ok (.object [], rest)
      | _ => (loadMembers (scanOnce n) n rest).map fun r => (.object r.1, r.2)
    | 'n' :: 'u' :: 'l' :: 'l' :: rest => .ok (.null, rest)
    | 't' :: 'r' :: 'u' :: 'e' :: rest => .ok (.bool true, rest)
    | 'f' :: 'a' :: 'l' :: 's' :: 'e' :: rest => .ok (.bool false, rest)
    | t => loadNumber t

/-- `json.loads`. -/
def loads (t : List Char) : Except LoadsError Doc :=
  match scanOnce (t.length + 1) (skip t) with
  | .error e => .error e
  | .ok (v, rest) => if skip rest = [] then .ok v else .error .decode

/-! ## Numbers of the grammar -/

/-- The text does not go on with a digit. -/
def EndsDigits (t : List Char) : Prop := ∀ c ∈ t.head?, c.isDigit = false

theorem endsDigits_of_ends {t : List Char} (h : Ends t) : EndsDigits t := by
  intro c hc
  have := h c hc
  simp only [isNumberChar, Bool.or_eq_false_iff] at this
  exact this.1.1.1.1.1

theorem endsDigits_cons {c : Char} (h : c.isDigit = false) (t : List Char) :
    EndsDigits (c :: t) := by
  intro c' hc'
  cases hc'
  exact h

/-- Digits are read up to something else. -/
theorem digits_append {d r : List Char} (hd : ∀ c ∈ d, c.isDigit = true) (hr : EndsDigits r) :
    (d ++ r).takeWhile Char.isDigit = d ∧ (d ++ r).dropWhile Char.isDigit = r := by
  rw [List.takeWhile_append_of_pos hd, List.dropWhile_append_of_pos hd]
  cases r with
  | nil => simp
  | cons c r =>
    have hc : ¬ c.isDigit = true := by simp [hr c rfl]
    rw [List.takeWhile_cons_of_neg hc, List.dropWhile_cons_of_neg hc, List.append_nil]
    exact ⟨rfl, rfl⟩

theorem isDigits_iff {t : List Char} :
    isDigits t = true ↔ t ≠ [] ∧ ∀ c ∈ t, c.isDigit = true := by
  simp [isDigits]

/-- The exponent of a number is read, with nothing of what follows. -/
theorem matchExponent_append {t rest : List Char} (h : isExponent t = true) (hr : Ends rest) :
    matchExponent (t ++ rest) = (t, rest) := by
  cases t with
  | nil =>
    cases rest with
    | nil => rfl
    | cons c rest =>
      have hc : ¬ (c = 'e' ∨ c = 'E') := by
        have := hr c rfl
        rintro (rfl | rfl) <;> cases this
      simp [matchExponent, hc]
  | cons e t =>
    simp only [isExponent, Bool.and_eq_true, Bool.or_eq_true, beq_iff_eq] at h
    obtain ⟨he, ht⟩ := h
    -- The digits after the sign `s`.
    have key : ∀ s d, isDigits d = true → matchSign (t ++ rest) = (s, d ++ rest) → s ++ d = t →
        matchExponent (e :: (t ++ rest)) = (e :: t, rest) := by
      intro s d hd hs hsd
      obtain ⟨hne, hall⟩ := isDigits_iff.mp hd
      obtain ⟨htake, hdrop⟩ := digits_append hall (endsDigits_of_ends hr)
      simp only [matchExponent, hs, htake, hdrop, hsd]
      rw [if_pos ⟨he, hne⟩]
    rw [List.cons_append]
    split at ht
    · exact key ['+'] _ ht rfl rfl
    · exact key ['-'] _ ht rfl rfl
    · refine key [] t ht ?_ rfl
      obtain ⟨hne, hall⟩ := isDigits_iff.mp ht
      cases t with
      | nil => exact absurd rfl hne
      | cons c t =>
        have hc := hall c List.mem_cons_self
        unfold matchSign
        split
        · rename_i heq
          cases heq
          cases hc
        · rename_i heq
          cases heq
          cases hc
        · rfl

/-- The exponent does not start with a digit. -/
theorem endsDigits_exponent {t rest : List Char} (h : isExponent t = true) (hr : Ends rest) :
    EndsDigits (t ++ rest) := by
  cases t with
  | nil => exact endsDigits_of_ends hr
  | cons e t =>
    simp only [isExponent, Bool.and_eq_true, Bool.or_eq_true, beq_iff_eq] at h
    refine endsDigits_cons ?_ _
    rcases h.1 with rfl | rfl <;> rfl

/-- The fraction and the exponent of a number are read. -/
theorem matchFraction_append {t rest : List Char} (h : isFraction t = true) (hr : Ends rest) :
    ∃ f e, matchFraction (t ++ rest) = (f, e ++ rest) ∧ f ++ e = t ∧ isExponent e = true ∧
      EndsDigits (t ++ rest) := by
  unfold isFraction at h
  split at h
  · rename_i t
    simp only [Bool.and_eq_true] at h
    obtain ⟨hd, he⟩ := h
    obtain ⟨hne, hall⟩ := isDigits_iff.mp hd
    have hsplit : t.takeWhile Char.isDigit ++ (t.dropWhile Char.isDigit ++ rest) = t ++ rest := by
      rw [← List.append_assoc, List.takeWhile_append_dropWhile]
    obtain ⟨htake, hdrop⟩ := digits_append hall (endsDigits_exponent he hr)
    rw [hsplit] at htake hdrop
    refine ⟨'.' :: t.takeWhile Char.isDigit, t.dropWhile Char.isDigit, ?_, ?_, he,
      endsDigits_cons rfl _⟩
    · simp only [List.cons_append, matchFraction, htake, hdrop]
      rw [if_neg hne]
    · rw [List.cons_append, List.takeWhile_append_dropWhile]
  · rename_i hdot
    refine ⟨[], t, ?_, rfl, h, endsDigits_exponent h hr⟩
    -- Without a fraction the text goes on with the exponent.
    unfold matchFraction
    split
    · rename_i u heq
      cases t with
      | nil =>
        rw [List.nil_append] at heq
        have := hr '.' (by rw [heq]; rfl)
        cases this
      | cons c t =>
        cases heq
        exact absurd rfl (hdot _)
    · rfl

theorem matchUnsigned_append {t rest : List Char} (h : isUnsigned t = true) (hr : Ends rest) :
    matchUnsigned (t ++ rest) = some (t, rest) := by
  -- The integer part `i` and what follows it.
  have key : ∀ i t', matchInt (t ++ rest) = some (i, t' ++ rest) → isFraction t' = true →
      i ++ t' = t → matchUnsigned (t ++ rest) = some (t, rest) := by
    intro i t' hi ht' hit
    obtain ⟨f, e, hf, hfe, he, -⟩ := matchFraction_append ht' hr
    simp only [matchUnsigned, hi, Option.map_some, hf, matchExponent_append he hr, hfe, hit]
  unfold isUnsigned at h
  split at h
  · exact key ['0'] _ rfl h rfl
  · rename_i hzero
    simp only [Bool.and_eq_true] at h
    obtain ⟨hd, hf⟩ := h
    obtain ⟨hne, hall⟩ := isDigits_iff.mp hd
    obtain ⟨-, -, -, -, -, hends⟩ := matchFraction_append hf hr
    have hsplit : t.takeWhile Char.isDigit ++ (t.dropWhile Char.isDigit ++ rest) = t ++ rest := by
      rw [← List.append_assoc, List.takeWhile_append_dropWhile]
    obtain ⟨htake, hdrop⟩ := digits_append hall hends
    rw [hsplit] at htake hdrop
    refine key _ _ ?_ hf List.takeWhile_append_dropWhile
    unfold matchInt
    split
    · rename_i u heq
      cases t with
      | nil => exact absurd rfl hne
      | cons c t =>
        cases heq
        exact absurd rfl (hzero _)
    · rw [htake, hdrop, if_neg hne]

/-- A number of the grammar is read, with nothing of what follows. -/
theorem matchNumber_append {t rest : List Char} (h : isNumber t = true) (hr : Ends rest) :
    matchNumber (t ++ rest) = some (t, rest) := by
  unfold isNumber at h
  split at h
  · simp only [List.cons_append, matchNumber, matchUnsigned_append h hr, Option.map_some]
  · rename_i hminus
    obtain ⟨c, t', rfl, -⟩ := isUnsigned_head h
    unfold matchNumber
    split
    · rename_i heq
      cases heq
      exact absurd rfl (hminus _)
    · exact matchUnsigned_append h hr

/-! ## The reader reads what the grammar has -/

mutual

/-- `int` takes every integer of the document. -/
def docFits : Doc → Bool
  | .number literal => literalFits literal
  | .array items => itemsFit items
  | .object ms => membersFit ms
  | _ => true

/-- `int` takes every integer of the items. -/
def itemsFit : List Doc → Bool
  | [] => true
  | v :: vs => docFits v && itemsFit vs

/-- `int` takes every integer of the members. -/
def membersFit : List (List Nat × Doc) → Bool
  | [] => true
  | (_, v) :: ms => docFits v && membersFit ms

end

/-- A number of the grammar does not start like a constant. -/
theorem noConstant_of_isNumber {t : List Char} (h : isNumber t = true) (rest : List Char) :
    jsonConstants.find? (·.isPrefixOf (t ++ rest)) = none := by
  obtain ⟨c, t', rfl, hc⟩ := isNumber_head h
  simp only [jsonConstants, List.find?_eq_none, List.mem_cons, List.not_mem_nil, or_false,
    List.isPrefixOf_iff_prefix]
  rintro _ (rfl | rfl | rfl) ⟨u, hu⟩
  · injection hu with hN
    subst hN
    revert hc
    decide
  · injection hu with hI
    subst hI
    revert hc
    decide
  · injection hu with hminus hI
    subst hminus
    -- After the sign there is a digit.
    obtain ⟨d, v, rfl, hd⟩ := isUnsigned_head (t := t') h
    injection hI with hI
    subst hI
    cases hd

theorem loadNumber_of_readNumber {t rest : List Char} {v : Doc}
    (h : readNumber [] t = some (v, rest)) (hv : docFits v = true) :
    loadNumber t = .ok (v, rest) := by
  simp only [readNumber, List.find?_nil, Option.map_none] at h
  split at h
  · rename_i hn
    cases h
    have hr : Ends (t.dropWhile isNumberChar) := by
      intro c hc
      have := List.head?_dropWhile_not isNumberChar t
      simp only [Option.mem_def.mp hc] at this
      simpa using this
    have hsplit : t.takeWhile isNumberChar ++ t.dropWhile isNumberChar = t :=
      List.takeWhile_append_dropWhile
    have hm := matchNumber_append hn hr
    have hc := noConstant_of_isNumber hn (t.dropWhile isNumberChar)
    rw [hsplit] at hm hc
    have hfit : literalFits (t.takeWhile isNumberChar) = true := by simpa only [docFits] using hv
    simp only [loadNumber, hc, hm, hfit, if_true]
  · cases h

/-- What one reader of values reads, the other does, when `int` takes its integers. -/
def Agrees (read : List Char → Option (Doc × List Char))
    (load : List Char → Except LoadsError (Doc × List Char)) : Prop :=
  ∀ t v rest, read t = some (v, rest) → docFits v = true → load t = .ok (v, rest)

theorem loadItems_of_readItems {read : List Char → Option (Doc × List Char)}
    {load : List Char → Except LoadsError (Doc × List Char)} (hrl : Agrees read load) {n : Nat}
    {t rest : List Char} {vs : List Doc} (h : readItems read n t = some (vs, rest))
    (hv : itemsFit vs = true) : loadItems load n t = .ok (vs, rest) := by
  induction n generalizing t vs with
  | zero => cases h
  | succ n ih =>
    simp only [readItems] at h
    split at h
    · cases h
    · rename_i v rest₁ hr
      split at h
      · rename_i rest₂ hs
        obtain ⟨⟨vs', rest'⟩, hi, heq⟩ := Option.map_eq_some_iff.mp h
        cases heq
        simp only [itemsFit, Bool.and_eq_true] at hv
        simp only [loadItems, hrl _ _ _ hr hv.1, hs, ih hi hv.2, Except.map]
      · rename_i rest₂ hs
        cases h
        simp only [itemsFit, Bool.and_true] at hv
        simp only [loadItems, hrl _ _ _ hr hv, hs]
      · cases h

theorem loadMembers_of_readMembers {read : List Char → Option (Doc × List Char)}
    {load : List Char → Except LoadsError (Doc × List Char)} (hrl : Agrees read load) {n : Nat}
    {t rest : List Char} {ms : List (List Nat × Doc)}
    (h : readMembers read n t = some (ms, rest)) (hv : membersFit ms = true) :
    loadMembers load n t = .ok (ms, rest) := by
  induction n generalizing t ms with
  | zero => cases h
  | succ n ih =>
    simp only [readMembers] at h
    split at h
    · cases h
    · rename_i k rest₀ hk
      split at h
      · cases h
      · rename_i v rest₁ hr
        split at h
        · rename_i rest₂ hs
          obtain ⟨⟨ms', rest'⟩, hi, heq⟩ := Option.map_eq_some_iff.mp h
          cases heq
          simp only [membersFit, Bool.and_eq_true] at hv
          simp only [loadMembers, hk, hrl _ _ _ hr hv.1, hs, ih hi hv.2, Except.map]
        · rename_i rest₂ hs
          cases h
          simp only [membersFit, Bool.and_true] at hv
          simp only [loadMembers, hk, hrl _ _ _ hr hv, hs]
        · cases h

/-- The reader of the grammar and Python's agree. -/
theorem scanOnce_agrees (n : Nat) : Agrees (readValue [] n) (scanOnce n) := by
  induction n with
  | zero =>
    intro t v rest h
    cases h
  | succ n ih =>
    intro t v rest h hv
    rw [readValue.eq_def] at h
    dsimp only at h
    split at h
    · obtain ⟨r, hr, heq⟩ := Option.map_eq_some_iff.mp h
      cases heq
      simp only [scanOnce, hr]
    · split at h
      · rename_i hs
        cases h
        simp only [scanOnce, hs]
      · rename_i hs
        obtain ⟨r, hr, heq⟩ := Option.map_eq_some_iff.mp h
        cases heq
        have hi := loadItems_of_readItems ih hr (by simpa only [docFits] using hv)
        simp only [scanOnce, hi, Except.map]
    · split at h
      · rename_i hs
        cases h
        simp only [scanOnce, hs]
      · rename_i hs
        obtain ⟨r, hr, heq⟩ := Option.map_eq_some_iff.mp h
        cases heq
        have hi := loadMembers_of_readMembers ih hr (by simpa only [docFits] using hv)
        simp only [scanOnce, hi, Except.map]
    · cases h
      rfl
    · cases h
      rfl
    · cases h
      rfl
    · -- The text is none of the above, for the other reader as well.
      rename_i h₁ h₂ h₃ h₄ h₅ h₆
      have hl := loadNumber_of_readNumber h hv
      rw [scanOnce.eq_def]
      dsimp only
      split
      · exact absurd rfl (h₁ _)
      · exact absurd rfl (h₂ _)
      · exact absurd rfl (h₃ _)
      · exact absurd rfl (h₄ _)
      · exact absurd rfl (h₅ _)
      · exact absurd rfl (h₆ _)
      · exact hl

/-- A text of the grammar, with whitespace around it, is read. -/
theorem loads_of_denotes {v : Doc} {w₁ t w₂ : List Char} (hw₁ : Blank w₁)
    (h : Denotes (.value v) t) (hw₂ : Blank w₂) (hv : docFits v = true) :
    loads (w₁ ++ (t ++ w₂)) = .ok v := by
  have hread : readValue [] ((w₁ ++ (t ++ w₂)).length + 1) (t ++ w₂) = some (v, w₂) := by
    refine readValue_of_denotes [] h ?_ ?_
    · simp only [List.length_append]
      omega
    · simpa using ends_blank hw₂ (t := []) (by simp [Ends])
  have hskip : skip w₂ = [] := by simpa [skip] using skip_blank hw₂ []
  simp only [loads, skip_denotes hw₁ h, scanOnce_agrees _ _ _ _ hread hv, hskip, if_true]

/-- An object at the start of a text is read; it is the value if there is nothing else. -/
theorem loads_object {ms : List (List Nat × Doc)} {t : List Char}
    (h : Denotes (.value (.object ms)) t) (hv : docFits (.object ms) = true) (rest : List Char) :
    loads (t ++ rest) = if skip rest = [] then .ok (.object ms) else .error .decode := by
  have hread := readValue_object [] h (n := (t ++ rest).length + 1)
    (by simp only [List.length_append]; omega) rest
  have hskip : skip (t ++ rest) = t ++ rest := skip_denotes (w := []) (by simp [Blank]) h rest
  simp only [loads, hskip, scanOnce_agrees _ _ _ _ hread hv]

/-! ## Texts that start with something else -/

theorem skip_eq_nil {t : List Char} (h : skip t = []) : Blank t := by
  simpa [skip, Blank, List.dropWhile_eq_nil_iff] using h

/-- The text starts with `u`, which has no brace. -/
def StartsWith (u t rest : List Char) : Prop := t = u ++ rest ∧ '{' ∉ u

theorem StartsWith.append {u v t r rest : List Char} (h : StartsWith u t r)
    (h' : StartsWith v r rest) : StartsWith (u ++ v) t rest := by
  obtain ⟨rfl, hu⟩ := h
  obtain ⟨rfl, hv⟩ := h'
  exact ⟨by rw [List.append_assoc], by simp [hu, hv]⟩

theorem startsWith_digits (t : List Char) :
    StartsWith (t.takeWhile Char.isDigit) t (t.dropWhile Char.isDigit) := by
  refine ⟨List.takeWhile_append_dropWhile.symm, fun h => ?_⟩
  have := List.mem_takeWhile_imp h
  revert this
  decide

theorem startsWith_nil (t : List Char) : StartsWith [] t t := ⟨rfl, List.not_mem_nil⟩

theorem startsWith_cons {c : Char} (hc : c ≠ '{') (t : List Char) : StartsWith [c] (c :: t) t :=
  ⟨rfl, by simpa using hc.symm⟩

theorem matchInt_startsWith {t u rest : List Char} (h : matchInt t = some (u, rest)) :
    StartsWith u t rest := by
  unfold matchInt at h
  split at h
  · cases h
    exact startsWith_cons (by decide) _
  · split at h
    · cases h
    · cases h
      exact startsWith_digits t

theorem matchFraction_startsWith (t : List Char) :
    StartsWith (matchFraction t).1 t (matchFraction t).2 := by
  unfold matchFraction
  split
  · split
    · exact startsWith_nil _
    · exact (startsWith_cons (by decide) _).append (startsWith_digits _)
  · exact startsWith_nil _

theorem matchSign_startsWith (t : List Char) :
    StartsWith (matchSign t).1 t (matchSign t).2 := by
  unfold matchSign
  split
  · exact startsWith_cons (by decide) _
  · exact startsWith_cons (by decide) _
  · exact startsWith_nil _

theorem matchExponent_startsWith (t : List Char) :
    StartsWith (matchExponent t).1 t (matchExponent t).2 := by
  unfold matchExponent
  split
  · exact startsWith_nil _
  · rename_i e t
    split
    · rename_i he
      have hne : e ≠ '{' := by
        rintro rfl
        exact absurd he.1 (by decide)
      exact (startsWith_cons hne _).append ((matchSign_startsWith t).append (startsWith_digits _))
    · exact startsWith_nil _

theorem matchUnsigned_startsWith {t u rest : List Char} (h : matchUnsigned t = some (u, rest)) :
    StartsWith u t rest := by
  obtain ⟨⟨i, r⟩, hi, heq⟩ := Option.map_eq_some_iff.mp h
  cases heq
  exact (matchInt_startsWith hi).append
    ((matchFraction_startsWith r).append (matchExponent_startsWith _))

theorem matchNumber_startsWith {t u rest : List Char} (h : matchNumber t = some (u, rest)) :
    StartsWith u t rest := by
  unfold matchNumber at h
  split at h
  · obtain ⟨r, hr, heq⟩ := Option.map_eq_some_iff.mp h
    cases heq
    exact (startsWith_cons (by decide) _).append (matchUnsigned_startsWith hr)
  · exact matchUnsigned_startsWith h

theorem loadNumber_startsWith {t rest : List Char} {v : Doc}
    (h : loadNumber t = .ok (v, rest)) : ∃ u, StartsWith u t rest := by
  unfold loadNumber at h
  split at h
  · rename_i literal hfind
    cases h
    have hp := List.find?_some (p := fun literal : List Char => literal.isPrefixOf t) hfind
    obtain ⟨r, hr⟩ := List.isPrefixOf_iff_prefix.mp hp
    have hmem := List.mem_of_find?_eq_some hfind
    refine ⟨literal, ?_, ?_⟩
    · rw [← hr, List.drop_left]
    · simp only [jsonConstants, List.mem_cons, List.not_mem_nil, or_false] at hmem
      rcases hmem with rfl | rfl | rfl <;> decide
  · cases h
  · rename_i hm
    split at h
    · cases h
      exact ⟨_, matchNumber_startsWith hm⟩
    · cases h

/-- A string has no line break. -/
theorem readChars_split {t rest : List Char} {s : List Nat} (h : readChars t = some (s, rest)) :
    ∃ u, t = u ++ '"' :: rest ∧ '\n' ∉ u := by
  fun_induction readChars t generalizing s with
  | case1 => cases h
  | case2 t =>
    cases h
    exact ⟨[], rfl, List.not_mem_nil⟩
  | case3 a b c d t n r hr hx ih =>
    cases h
    obtain ⟨u, rfl, hu⟩ := ih hr
    refine ⟨'\\' :: 'u' :: a :: b :: c :: d :: u, rfl, ?_⟩
    simp only [List.mem_cons, not_or]
    refine ⟨by decide, by decide, ?_, ?_, ?_, ?_, hu⟩
    all_goals
      rintro rfl
      simp [hex4, hexDigit] at hx
  | case4 => cases h
  | case5 e t _ c r hr he ih =>
    cases h
    obtain ⟨u, rfl, hu⟩ := ih hr
    refine ⟨'\\' :: e :: u, rfl, ?_⟩
    simp only [List.mem_cons, not_or]
    refine ⟨by decide, ?_, hu⟩
    rintro rfl
    cases he
  | case6 => cases h
  | case7 c t _ _ _ hc ih =>
    obtain ⟨r, hr, heq⟩ := Option.map_eq_some_iff.mp h
    cases heq
    obtain ⟨u, rfl, hu⟩ := ih hr
    refine ⟨c :: u, rfl, ?_⟩
    simp only [List.mem_cons, not_or]
    refine ⟨?_, hu⟩
    rintro rfl
    exact absurd hc.1 (by decide)
  | case8 => cases h

/-- What follows the start of a text that has a brace is not blank. -/
theorem StartsWith.skip_ne {u t rest : List Char} (h : StartsWith u t rest) (ht : '{' ∈ t) :
    skip rest ≠ [] := by
  obtain ⟨rfl, hu⟩ := h
  intro hs
  rcases List.mem_append.mp ht with h | h
  · exact hu h
  · exact absurd (skip_eq_nil hs _ h) (by decide)

/-- A text that has a brace, but does not start with a bracket or a brace, is read only as a string,
with no line break before the brace. -/
theorem loads_prose {c : Char} {p y : List Char} {v : Doc}
    (hc : Lib.JsonText.isSpace c = false) (hbrace : c ≠ '{') (hbracket : c ≠ '[')
    (h : loads (c :: (p ++ '{' :: y)) = .ok v) :
    (∃ s, v = .string s) ∧ '\n' ∉ p := by
  have hskip : skip (c :: (p ++ '{' :: y)) = c :: (p ++ '{' :: y) := skip_cons hc _
  have hmem : '{' ∈ c :: (p ++ '{' :: y) := by simp
  unfold loads at h
  rw [hskip] at h
  split at h
  · cases h
  · rename_i v' rest hv
    split at h
    · rename_i hrest
      cases h
      rw [scanOnce.eq_def] at hv
      dsimp only at hv
      -- After a value without a brace the brace is left.
      have hno : ∀ u, StartsWith u (c :: (p ++ '{' :: y)) rest → False :=
        fun u hu => hu.skip_ne hmem hrest
      split at hv
      · rename_i rest₀ heq
        injection heq with _ heq
        split at hv
        · cases hv
        · rename_i r hr
          cases hv
          obtain ⟨u, hu, hbreak⟩ := readChars_split hr
          refine ⟨⟨_, rfl⟩, fun hp => hbreak ?_⟩
          -- The string goes beyond the brace, since only whitespace follows it.
          rw [← heq] at hu
          rcases List.append_eq_append_iff.mp hu with ⟨a, ha, -⟩ | ⟨a, ha, hq⟩
          · rw [ha]
            exact List.mem_append_left _ hp
          · have hmem' : '{' ∈ '"' :: r.2 := by
              rw [hq]
              simp
            rcases List.mem_cons.mp hmem' with h | h
            · cases h
            · exact absurd (skip_eq_nil hrest _ h) (by decide)
      · rename_i heq
        cases heq
        exact absurd rfl hbracket
      · rename_i heq
        cases heq
        exact absurd rfl hbrace
      · rename_i heq
        cases hv
        exact (hno ['n', 'u', 'l', 'l'] ⟨heq, by decide⟩).elim
      · rename_i heq
        cases hv
        exact (hno ['t', 'r', 'u', 'e'] ⟨heq, by decide⟩).elim
      · rename_i heq
        cases hv
        exact (hno ['f', 'a', 'l', 's', 'e'] ⟨heq, by decide⟩).elim
      · obtain ⟨u, hu⟩ := loadNumber_startsWith hv
        exact (hno u hu).elim
    · cases h

end Py
end AutoSRE
