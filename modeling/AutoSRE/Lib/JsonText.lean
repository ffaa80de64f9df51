import Mathlib.Data.List.TakeWhile

/-!
# JSON texts

The grammar of JSON texts, and a reader of them.

* `Doc`: what a text says. A string is a list of code points, so that a lone surrogate has a place;
  a number is its literal; the members of an object are in the order of the text.
* `Denotes form t`: the text `t` denotes a document (`Form.value`), the items of an array or the
  members of an object. `Chars` is the grammar of the characters between two quotes.
* `readValue`: the value at the start of a text, and what follows it. `extra` are the further
  literals that a dialect reads as numbers.
* `read_of_denotes`: the reader reads every text of the grammar, with what it denotes.
-/

namespace AutoSRE
namespace Lib
namespace JsonText

/-- A JSON document. -/
inductive Doc where
  | null
  | bool (b : Bool)
  | number (literal : List Char)
  | string (s : List Nat)
  | array (items : List Doc)
  | object (members : List (List Nat × Doc))

/-- The code points of a text. -/
def codePoints (s : String) : List Nat := s.toList.map Char.toNat

/-! ## Characters -/

/-- Insignificant whitespace. -/
def isSpace (c : Char) : Bool := c == ' ' || c == '\t' || c == '\n' || c == '\r'

/-- The text is insignificant whitespace. -/
def Blank (t : List Char) : Prop := ∀ c ∈ t, isSpace c = true

/-- The text without the whitespace at its start. -/
def skip (t : List Char) : List Char := t.dropWhile isSpace

/-- The character that an escape stands for. -/
def escapeOf : Char → Option Char
  | '"' => some '"'
  | '\\' => some '\\'
  | '/' => some '/'
  | 'b' => some (Char.ofNat 8)
  | 'f' => some (Char.ofNat 12)
  | 'n' => some '\n'
  | 'r' => some '\r'
  | 't' => some '\t'
  | _ => none

/-- The value of a hexadecimal digit. -/
def hexDigit (c : Char) : Option Nat :=
  if '0' ≤ c ∧ c ≤ '9' then some (c.toNat - 48)
  else if 'a' ≤ c ∧ c ≤ 'f' then some (c.toNat - 87)
  else if 'A' ≤ c ∧ c ≤ 'F' then some (c.toNat - 55)
  else none

/-- The value of four hexadecimal digits. -/
def hex4 (a b c d : Char) : Option Nat :=
  match hexDigit a, hexDigit b, hexDigit c, hexDigit d with
  | some a, some b, some c, some d => some (((a * 16 + b) * 16 + c) * 16 + d)
  | _, _, _, _ => none

/-- A code unit before code points: a high surrogate and a low one make one code point. -/
def consUnit (n : Nat) : List Nat → List Nat
  | [] => [n]
  | m :: s =>
    if 0xd800 ≤ n ∧ n ≤ 0xdbff ∧ 0xdc00 ≤ m ∧ m ≤ 0xdfff then
      (0x10000 + (n - 0xd800) * 0x400 + (m - 0xdc00)) :: s
    else n :: m :: s

/-- Code points, and the characters that denote them in a string. -/
inductive Chars : List Nat → List Char → Prop
  | nil : Chars [] []
  | plain {s : List Nat} {t : List Char} (c : Char) : 0x20 ≤ c.toNat → c ≠ '"' → c ≠ '\\' →
      Chars s t → Chars (c.toNat :: s) (c :: t)
  | escape {s : List Nat} {t : List Char} (e c : Char) : escapeOf e = some c → Chars s t →
      Chars (c.toNat :: s) ('\\' :: e :: t)
  | unicode {s : List Nat} {t : List Char} (a b c d : Char) (n : Nat) : hex4 a b c d = some n →
      Chars s t → Chars (consUnit n s) ('\\' :: 'u' :: a :: b :: c :: d :: t)

/-- The characters up to the closing quote, and what follows it. -/
def readChars : List Char → Option (List Nat × List Char)
  | [] => none
  | '"' :: rest => some ([], rest)
  | '\\' :: 'u' :: a :: b :: c :: d :: rest =>
    match hex4 a b c d, readChars rest with
    | some n, some r => some (consUnit n r.1, r.2)
    | _, _ => none
  | '\\' :: e :: rest =>
    match escapeOf e, readChars rest with
    | some c, some r => some (c.toNat :: r.1, r.2)
    | _, _ => none
  | c :: rest =>
    if 0x20 ≤ c.toNat ∧ c ≠ '\\' then (readChars rest).map fun r => (c.toNat :: r.1, r.2)
    else none

theorem readChars_of_chars {s : List Nat} {t : List Char} (h : Chars s t) (rest : List Char) :
    readChars (t ++ '"' :: rest) = some (s, rest) := by
  induction h with
  | nil => rfl
  | plain c hc hq hb _ ih =>
    rw [List.cons_append, readChars.eq_def]
    split <;> simp_all
  | escape e c he _ ih =>
    have hu : e ≠ 'u' := by
      rintro rfl
      cases he
    rw [List.cons_append, List.cons_append, readChars.eq_def]
    split
    case h_5 =>
      -- A backslash with a character after it is an escape.
      rename_i hno heq
      cases heq
      exact absurd rfl (hno e _ rfl)
    all_goals simp_all
  | unicode a b c d n hn _ ih => simp [readChars, hn, ih]

/-! ## Numbers -/

/-- A character of a number. -/
def isNumberChar (c : Char) : Bool :=
  c.isDigit || c == '-' || c == '+' || c == '.' || c == 'e' || c == 'E'

/-- The text is one digit or more. -/
def isDigits (t : List Char) : Bool := !t.isEmpty && t.all Char.isDigit

/-- An exponent, or nothing. -/
def isExponent : List Char → Bool
  | [] => true
  | e :: t => (e == 'e' || e == 'E') &&
    match t with
    | '+' :: t | '-' :: t => isDigits t
    | t => isDigits t

/-- A fraction and an exponent, each of which can be missing. -/
def isFraction : List Char → Bool
  | '.' :: t => isDigits (t.takeWhile Char.isDigit) && isExponent (t.dropWhile Char.isDigit)
  | t => isExponent t

/-- A number without a sign. -/
def isUnsigned : List Char → Bool
  | '0' :: t => isFraction t
  | t => isDigits (t.takeWhile Char.isDigit) && isFraction (t.dropWhile Char.isDigit)

/-- A number of the grammar. -/
def isNumber : List Char → Bool
  | '-' :: t => isUnsigned t
  | t => isUnsigned t

/-! ## The grammar -/

/-- What a text denotes: a document, the items of an array, or the members of an object. -/
inductive Form where
  | value (v : Doc)
  | items (vs : List Doc)
  | members (ms : List (List Nat × Doc))

/-- The grammar: the text denotes the form. -/
inductive Denotes : Form → List Char → Prop
  | null : Denotes (.value .null) ['n', 'u', 'l', 'l']
  | true : Denotes (.value (.bool Bool.true)) ['t', 'r', 'u', 'e']
  | false : Denotes (.value (.bool Bool.false)) ['f', 'a', 'l', 's', 'e']
  | number (t : List Char) : isNumber t = Bool.true → Denotes (.value (.number t)) t
  | string (s : List Nat) (t : List Char) : Chars s t →
      Denotes (.value (.string s)) ('"' :: (t ++ ['"']))
  | emptyArray (w : List Char) : Blank w → Denotes (.value (.array [])) ('[' :: (w ++ [']']))
  | array (vs : List Doc) (t : List Char) : Denotes (.items vs) t →
      Denotes (.value (.array vs)) ('[' :: (t ++ [']']))
  | emptyObject (w : List Char) : Blank w → Denotes (.value (.object [])) ('{' :: (w ++ ['}']))
  | object (ms : List (List Nat × Doc)) (t : List Char) : Denotes (.members ms) t →
      Denotes (.value (.object ms)) ('{' :: (t ++ ['}']))
  | lastItem (v : Doc) (w₁ t w₂ : List Char) : Blank w₁ → Denotes (.value v) t → Blank w₂ →
      Denotes (.items [v]) (w₁ ++ (t ++ w₂))
  | item (v : Doc) (vs : List Doc) (w₁ t w₂ t' : List Char) : Blank w₁ → Denotes (.value v) t →
      Blank w₂ → Denotes (.items vs) t' →
      Denotes (.items (v :: vs)) (w₁ ++ (t ++ (w₂ ++ ',' :: t')))
  | lastMember (k : List Nat) (v : Doc) (w₁ kt w₂ w₃ t w₄ : List Char) : Blank w₁ → Chars k kt →
      Blank w₂ → Blank w₃ → Denotes (.value v) t → Blank w₄ →
      Denotes (.members [(k, v)]) (w₁ ++ '"' :: (kt ++ '"' :: (w₂ ++ ':' :: (w₃ ++ (t ++ w₄)))))
  | member (k : List Nat) (v : Doc) (ms : List (List Nat × Doc))
      (w₁ kt w₂ w₃ t w₄ t' : List Char) : Blank w₁ → Chars k kt → Blank w₂ → Blank w₃ →
      Denotes (.value v) t → Blank w₄ → Denotes (.members ms) t' →
      Denotes (.members ((k, v) :: ms))
        (w₁ ++ '"' :: (kt ++ '"' :: (w₂ ++ ':' :: (w₃ ++ (t ++ (w₄ ++ ',' :: t'))))))

/-! ## The reader -/

/-- Items up to the closing bracket, each read by `value`. -/
def readItems (value : List Char → Option (Doc × List Char)) :
    Nat → List Char → Option (List Doc × List Char)
  | 0, _ => none
  | n + 1, t =>
    match value (skip t) with
    | none => none
    | some (v, rest) =>
      match skip rest with
      | ',' :: rest => (readItems value n rest).map fun r => (v :: r.1, r.2)
      | ']' :: rest => some ([v], rest)
      | _ => none

/-- The key of a member and the colon. -/
def readKey (t : List Char) : Option (List Nat × List Char) :=
  match skip t with
  | '"' :: rest =>
    match readChars rest with
    | none => none
    | some (k, rest) =>
      match skip rest with
      | ':' :: rest => some (k, rest)
      | _ => none
  | _ => none

/-- Members up to the closing brace, each value read by `value`. -/
def readMembers (value : List Char → Option (Doc × List Char)) :
    Nat → List Char → Option (List (List Nat × Doc) × List Char)
  | 0, _ => none
  | n + 1, t =>
    match readKey t with
    | none => none
    | some (k, rest) =>
      match value (skip rest) with
      | none => none
      | some (v, rest) =>
        match skip rest with
        | ',' :: rest => (readMembers value n rest).map fun r => ((k, v) :: r.1, r.2)
        | '}' :: rest => some ([(k, v)], rest)
        | _ => none

/-- A number, or one of the further literals. -/
def readNumber (extra : List (List Char)) (t : List Char) : Option (Doc × List Char) :=
  if isNumber (t.takeWhile isNumberChar) then
    some (.number (t.takeWhile isNumberChar), t.dropWhile isNumberChar)
  else
    (extra.find? fun literal => literal.isPrefixOf t).map fun literal =>
      (.number literal, t.drop literal.length)

/-- The value at the start of a text, and what follows it. The first argument bounds the nesting. -/
def readValue (extra : List (List Char)) : Nat → List Char → Option (Doc × List Char)
  | 0, _ => none
  | n + 1, t =>
    match t with
    | '"' :: rest => (readChars rest).map fun r => (.string r.1, r.2)
    | '[' :: rest =>
      match skip rest with
      | ']' :: rest => some (.array [], rest)
      | _ => (readItems (readValue extra n) n rest).map fun r => (.array r.1, r.2)
    | '{' :: rest =>
      match skip rest with
      | '}' :: rest => some (.object [], rest)
      | _ => (readMembers (readValue extra n) n rest).map fun r => (.object r.1, r.2)
    | 'n' :: 'u' :: 'l' :: 'l' :: rest => some (.null, rest)
    | 't' :: 'r' :: 'u' :: 'e' :: rest => some (.bool true, rest)
    | 'f' :: 'a' :: 'l' :: 's' :: 'e' :: rest => some (.bool false, rest)
    | t => readNumber extra t

/-- The document of a text: one value, with whitespace around it. -/
def read (extra : List (List Char)) (t : List Char) : Option Doc :=
  match readValue extra (t.length + 1) (skip t) with
  | some (v, rest) => if skip rest = [] then some v else none
  | none => none

/-! ## What the reader does at the start of a text -/

/-- The text does not go on with a character of a number. -/
def Ends (t : List Char) : Prop := ∀ c ∈ t.head?, isNumberChar c = false

/-- The first character of a value. -/
def startsValue (c : Char) : Bool :=
  c == '"' || c == '[' || c == '{' || c == 'n' || c == 't' || c == 'f' || c == '-' || c.isDigit

theorem skip_blank {w : List Char} (h : Blank w) (t : List Char) : skip (w ++ t) = skip t := by
  induction w with
  | nil => rfl
  | cons c w ih =>
    rw [List.cons_append, skip, List.dropWhile_cons_of_pos (h c List.mem_cons_self)]
    exact ih fun c' hc' => h c' (List.mem_cons_of_mem c hc')

theorem skip_cons {c : Char} (h : isSpace c = false) (t : List Char) : skip (c :: t) = c :: t :=
  List.dropWhile_cons_of_neg (by simp [h])

theorem isSpace_of_startsValue {c : Char} (h : startsValue c = true) : isSpace c = false := by
  simp only [startsValue, isSpace, Bool.or_eq_true, beq_iff_eq, Bool.or_eq_false_iff,
    beq_eq_false_iff_ne] at h ⊢
  rcases h with ((((((h | h) | h) | h) | h) | h) | h) | h
  all_goals first
    | (subst h; decide)
    | (refine ⟨⟨⟨?_, ?_⟩, ?_⟩, ?_⟩ <;> rintro rfl <;> revert h <;> decide)

theorem ends_cons {c : Char} (h : isNumberChar c = false) (t : List Char) : Ends (c :: t) := by
  intro c' hc'
  cases hc'
  exact h

/-- Whitespace, then a character that is none of a number. -/
theorem ends_blank {w : List Char} (h : Blank w) {t : List Char} (ht : Ends t) :
    Ends (w ++ t) := by
  cases w with
  | nil => exact ht
  | cons c w =>
    refine ends_cons ?_ _
    have hc := h c List.mem_cons_self
    simp only [isSpace, Bool.or_eq_true, beq_iff_eq] at hc
    rcases hc with ((rfl | rfl) | rfl) | rfl <;> decide

theorem isDigit_numberChar {c : Char} (h : c.isDigit = true) : isNumberChar c = true := by
  simp [isNumberChar, h]

theorem isDigits_chars {t : List Char} (h : isDigits t = true) :
    ∀ c ∈ t, isNumberChar c = true := by
  simp only [isDigits, Bool.and_eq_true, List.all_eq_true] at h
  exact fun c hc => isDigit_numberChar (h.2 c hc)

theorem isExponent_chars {t : List Char} (h : isExponent t = true) :
    ∀ c ∈ t, isNumberChar c = true := by
  cases t with
  | nil => exact fun c hc => absurd hc List.not_mem_nil
  | cons e t =>
    simp only [isExponent, Bool.and_eq_true, Bool.or_eq_true, beq_iff_eq] at h
    obtain ⟨he, ht⟩ := h
    have hhead : isNumberChar e = true := by rcases he with rfl | rfl <;> decide
    refine List.forall_mem_cons.mpr ⟨hhead, ?_⟩
    split at ht
    · exact List.forall_mem_cons.mpr ⟨by decide, isDigits_chars ht⟩
    · exact List.forall_mem_cons.mpr ⟨by decide, isDigits_chars ht⟩
    · exact isDigits_chars ht

/-- Digits, then characters of a number. -/
theorem chars_of_digits {t : List Char}
    (h : ∀ c ∈ t.dropWhile Char.isDigit, isNumberChar c = true) :
    ∀ c ∈ t, isNumberChar c = true := by
  intro c hc
  rw [← List.takeWhile_append_dropWhile (p := Char.isDigit) (l := t)] at hc
  rcases List.mem_append.mp hc with hc | hc
  · exact isDigit_numberChar (List.mem_takeWhile_imp hc)
  · exact h c hc

theorem isFraction_chars {t : List Char} (h : isFraction t = true) :
    ∀ c ∈ t, isNumberChar c = true := by
  unfold isFraction at h
  split at h
  · simp only [Bool.and_eq_true] at h
    exact List.forall_mem_cons.mpr ⟨by decide, chars_of_digits (isExponent_chars h.2)⟩
  · exact isExponent_chars h

theorem isUnsigned_chars {t : List Char} (h : isUnsigned t = true) :
    ∀ c ∈ t, isNumberChar c = true := by
  unfold isUnsigned at h
  split at h
  · exact List.forall_mem_cons.mpr ⟨by decide, isFraction_chars h⟩
  · simp only [Bool.and_eq_true] at h
    exact chars_of_digits (isFraction_chars h.2)

theorem isNumber_chars {t : List Char} (h : isNumber t = true) :
    ∀ c ∈ t, isNumberChar c = true := by
  unfold isNumber at h
  split at h
  · exact List.forall_mem_cons.mpr ⟨by decide, isUnsigned_chars h⟩
  · exact isUnsigned_chars h

theorem isUnsigned_head {t : List Char} (h : isUnsigned t = true) :
    ∃ c t', t = c :: t' ∧ c.isDigit = true := by
  cases t with
  | nil => simp [isUnsigned, isDigits] at h
  | cons c t' =>
    refine ⟨c, t', rfl, ?_⟩
    unfold isUnsigned at h
    split at h
    · rename_i heq
      cases heq
      rfl
    · simp only [Bool.and_eq_true, isDigits, Bool.not_eq_true', List.isEmpty_eq_false_iff] at h
      by_cases hc : c.isDigit = true
      · exact hc
      · exact absurd (List.takeWhile_cons_of_neg hc) h.1.1

theorem isNumber_head {t : List Char} (h : isNumber t = true) :
    ∃ c t', t = c :: t' ∧ (c = '-' ∨ c.isDigit = true) := by
  unfold isNumber at h
  split at h
  · exact ⟨'-', _, rfl, .inl rfl⟩
  · obtain ⟨c, t', rfl, hc⟩ := isUnsigned_head h
    exact ⟨c, t', rfl, .inr hc⟩

theorem readNumber_of_isNumber (extra : List (List Char)) {t : List Char} (h : isNumber t = true)
    {rest : List Char} (hr : Ends rest) :
    readNumber extra (t ++ rest) = some (.number t, rest) := by
  have hchars := isNumber_chars h
  have hrest : rest.takeWhile isNumberChar = [] ∧ rest.dropWhile isNumberChar = rest := by
    cases rest with
    | nil => exact ⟨rfl, rfl⟩
    | cons c rest =>
      have hc := hr c rfl
      exact ⟨List.takeWhile_cons_of_neg (by simp [hc]), List.dropWhile_cons_of_neg (by simp [hc])⟩
  have htake : (t ++ rest).takeWhile isNumberChar = t := by
    rw [List.takeWhile_append_of_pos hchars, hrest.1, List.append_nil]
  have hdrop : (t ++ rest).dropWhile isNumberChar = rest := by
    rw [List.dropWhile_append_of_pos hchars, hrest.2]
  rw [readNumber, htake, if_pos h, hdrop]

/-- A text that starts like a number is read as one. -/
theorem readValue_number (extra : List (List Char)) (n : Nat) {c : Char} (t : List Char)
    (hc : c = '-' ∨ c.isDigit = true) :
    readValue extra (n + 1) (c :: t) = readNumber extra (c :: t) := by
  have hne : c ≠ '"' ∧ c ≠ '[' ∧ c ≠ '{' ∧ c ≠ 'n' ∧ c ≠ 't' ∧ c ≠ 'f' := by
    refine ⟨?_, ?_, ?_, ?_, ?_, ?_⟩ <;> rintro rfl <;> revert hc <;> decide
  rw [readValue.eq_def]
  split <;> simp_all

/-- A text that denotes a value starts like one. -/
theorem denotes_head {v : Doc} {t : List Char} (h : Denotes (.value v) t) :
    ∃ c t', t = c :: t' ∧ startsValue c = true := by
  cases h with
  | null => exact ⟨_, _, rfl, rfl⟩
  | true => exact ⟨_, _, rfl, rfl⟩
  | false => exact ⟨_, _, rfl, rfl⟩
  | number _ hn =>
    obtain ⟨c, t', rfl, hc⟩ := isNumber_head hn
    refine ⟨c, t', rfl, ?_⟩
    rcases hc with rfl | hc
    · rfl
    · simp [startsValue, hc]
  | string _ _ _ => exact ⟨_, _, rfl, rfl⟩
  | emptyArray _ _ => exact ⟨_, _, rfl, rfl⟩
  | array _ _ _ => exact ⟨_, _, rfl, rfl⟩
  | emptyObject _ _ => exact ⟨_, _, rfl, rfl⟩
  | object _ _ _ => exact ⟨_, _, rfl, rfl⟩

/-- The whitespace before a value is skipped. -/
theorem skip_denotes {v : Doc} {w t : List Char} (hw : Blank w) (h : Denotes (.value v) t)
    (rest : List Char) : skip (w ++ (t ++ rest)) = t ++ rest := by
  obtain ⟨c, t', rfl, hc⟩ := denotes_head h
  rw [skip_blank hw]
  exact skip_cons (isSpace_of_startsValue hc) _

/-- Items start with a value. -/
theorem skip_items {vs : List Doc} {t : List Char} (h : Denotes (.items vs) t)
    (rest : List Char) : ∃ c t', skip (t ++ rest) = c :: t' ∧ startsValue c = true := by
  cases h with
  | lastItem v w₁ t w₂ hw hv _ =>
    obtain ⟨c, t', ht, hc⟩ := denotes_head hv
    refine ⟨c, t' ++ (w₂ ++ rest), ?_, hc⟩
    rw [List.append_assoc, List.append_assoc, skip_denotes hw hv, ht, List.cons_append]
  | item v vs w₁ t w₂ t' hw hv _ _ =>
    obtain ⟨c, u, ht, hc⟩ := denotes_head hv
    refine ⟨c, u ++ ((w₂ ++ ',' :: t') ++ rest), ?_, hc⟩
    rw [List.append_assoc, List.append_assoc, skip_denotes hw hv, ht, List.cons_append]

/-- Members start with a quote. -/
theorem skip_members {ms : List (List Nat × Doc)} {t : List Char} (h : Denotes (.members ms) t)
    (rest : List Char) : ∃ t', skip (t ++ rest) = '"' :: t' := by
  cases h with
  | lastMember _ _ w₁ _ _ _ _ _ hw _ _ _ _ _ =>
    exact ⟨_, by rw [List.append_assoc, skip_blank hw]; exact skip_cons (by decide) _⟩
  | member _ _ _ w₁ _ _ _ _ _ _ hw _ _ _ _ _ _ =>
    exact ⟨_, by rw [List.append_assoc, skip_blank hw]; exact skip_cons (by decide) _⟩

/-! ## The reader reads every text of the grammar -/

/-- The reader reads the text, wherever it stands. -/
def Reads (extra : List (List Char)) : Form → List Char → Prop
  | .value v, t => ∀ n rest, t.length < n → Ends rest →
      readValue extra n (t ++ rest) = some (v, rest)
  | .items vs, t => ∀ n m rest, t.length < n → t.length < m →
      readItems (readValue extra n) m (t ++ ']' :: rest) = some (vs, rest)
  | .members ms, t => ∀ n m rest, t.length < n → t.length < m →
      readMembers (readValue extra n) m (t ++ '}' :: rest) = some (ms, rest)

section reads

variable (extra : List (List Char))

theorem readKey_chars {k : List Nat} {w₁ kt w₂ : List Char} (hw₁ : Blank w₁) (hk : Chars k kt)
    (hw₂ : Blank w₂) (rest : List Char) :
    readKey (w₁ ++ '"' :: (kt ++ '"' :: (w₂ ++ ':' :: rest))) = some (k, rest) := by
  unfold readKey
  rw [skip_blank hw₁, skip_cons (by decide)]
  simp only [readChars_of_chars hk, skip_blank hw₂, skip_cons (c := ':') (by decide)]

/-- An object is read, if its members are. -/
theorem readValue_members {ms : List (List Nat × Doc)} {t : List Char}
    (h : Denotes (.members ms) t) (hr : Reads extra (.members ms) t) {n : Nat}
    (hn : ('{' :: (t ++ ['}'])).length < n) (rest : List Char) :
    readValue extra n ('{' :: (t ++ ['}']) ++ rest) = some (.object ms, rest) := by
  cases n with
  | zero => cases hn
  | succ n =>
    obtain ⟨t', hs⟩ := skip_members h ('}' :: rest)
    have hlen : t.length < n := by
      simp only [List.length_cons, List.length_append, List.length_nil] at hn
      omega
    have hi := hr n n rest hlen hlen
    simp only [List.cons_append, List.append_assoc, List.nil_append, readValue]
    split
    · rename_i heq
      rw [hs] at heq
      cases heq
    · rw [hi]
      rfl

/-- The reader reads every text of the grammar. -/
theorem reads_of_denotes {f : Form} {t : List Char} (h : Denotes f t) : Reads extra f t := by
  induction h with
  | null =>
    rintro (_ | n) rest hn hr
    · cases hn
    · rfl
  | true =>
    rintro (_ | n) rest hn hr
    · cases hn
    · rfl
  | false =>
    rintro (_ | n) rest hn hr
    · cases hn
    · rfl
  | number t ht =>
    rintro (_ | n) rest hn hr
    · cases hn
    · obtain ⟨c, t', rfl, hc⟩ := isNumber_head ht
      rw [List.cons_append, readValue_number extra n _ hc]
      exact readNumber_of_isNumber extra ht hr
  | string s t hs =>
    rintro (_ | n) rest hn hr
    · cases hn
    · simp [readValue, readChars_of_chars hs]
  | emptyArray w hw =>
    rintro (_ | n) rest hn hr
    · cases hn
    · simp [readValue, skip_blank hw, skip_cons (c := ']') (by decide)]
  | emptyObject w hw =>
    rintro (_ | n) rest hn hr
    · cases hn
    · simp [readValue, skip_blank hw, skip_cons (c := '}') (by decide)]
  | array vs t ht ih =>
    rintro (_ | n) rest hn hr
    · cases hn
    · obtain ⟨c, t', hs, hc⟩ := skip_items ht (']' :: rest)
      have hne : c ≠ ']' := by
        rintro rfl
        revert hc
        decide
      have hlen : t.length < n := by
        simp only [List.length_cons, List.length_append, List.length_nil] at hn
        omega
      have hi := ih n n rest hlen hlen
      simp only [List.cons_append, List.append_assoc, List.nil_append, readValue]
      split
      · rename_i heq
        rw [hs] at heq
        cases heq
        exact absurd rfl hne
      · rw [hi]
        rfl
  | object ms t ht ih =>
    rintro n rest hn -
    exact readValue_members extra ht ih hn rest
  | lastItem v w₁ t w₂ hw₁ ht hw₂ ih =>
    rintro n (_ | m) rest hn hm
    · cases hm
    · simp only [List.length_append] at hn
      have hv := ih n (w₂ ++ ']' :: rest) (by omega) (ends_blank hw₂ (ends_cons (by decide) _))
      simp only [List.append_assoc, readItems, skip_denotes hw₁ ht, hv, skip_blank hw₂,
        skip_cons (c := ']') (by decide)]
  | item v vs w₁ t w₂ t' hw₁ ht hw₂ _ ih ih' =>
    rintro n (_ | m) rest hn hm
    · cases hm
    · simp only [List.length_append, List.length_cons] at hn hm
      have hv := ih n (w₂ ++ ',' :: (t' ++ ']' :: rest)) (by omega)
        (ends_blank hw₂ (ends_cons (by decide) _))
      have hi := ih' n m rest (by omega) (by omega)
      simp only [List.append_assoc, List.cons_append, readItems, skip_denotes hw₁ ht, hv,
        skip_blank hw₂, skip_cons (c := ',') (by decide), hi, Option.map_some]
  | lastMember k v w₁ kt w₂ w₃ t w₄ hw₁ hk hw₂ hw₃ ht hw₄ ih =>
    rintro n (_ | m) rest hn hm
    · cases hm
    · simp only [List.length_append, List.length_cons] at hn
      have hv := ih n (w₄ ++ '}' :: rest) (by omega) (ends_blank hw₄ (ends_cons (by decide) _))
      simp only [List.append_assoc, List.cons_append, readMembers, readKey_chars hw₁ hk hw₂,
        skip_denotes hw₃ ht, hv, skip_blank hw₄, skip_cons (c := '}') (by decide)]
  | member k v ms w₁ kt w₂ w₃ t w₄ t' hw₁ hk hw₂ hw₃ ht hw₄ _ ih ih' =>
    rintro n (_ | m) rest hn hm
    · cases hm
    · simp only [List.length_append, List.length_cons] at hn hm
      have hv := ih n (w₄ ++ ',' :: (t' ++ '}' :: rest)) (by omega)
        (ends_blank hw₄ (ends_cons (by decide) _))
      have hi := ih' n m rest (by omega) (by omega)
      simp only [List.append_assoc, List.cons_append, readMembers, readKey_chars hw₁ hk hw₂,
        skip_denotes hw₃ ht, hv, skip_blank hw₄, skip_cons (c := ',') (by decide), hi,
        Option.map_some]

/-- A value at the start of a text is read. -/
theorem readValue_of_denotes {v : Doc} {t : List Char} (h : Denotes (.value v) t) {n : Nat}
    (hn : t.length < n) {rest : List Char} (hr : Ends rest) :
    readValue extra n (t ++ rest) = some (v, rest) :=
  reads_of_denotes extra h n rest hn hr

/-- An object is read, whatever follows it. -/
theorem readValue_object {ms : List (List Nat × Doc)} {t : List Char}
    (h : Denotes (.value (.object ms)) t) {n : Nat} (hn : t.length < n) (rest : List Char) :
    readValue extra n (t ++ rest) = some (.object ms, rest) := by
  cases h with
  | emptyObject w hw =>
    cases n with
    | zero => cases hn
    | succ n => simp [readValue, skip_blank hw, skip_cons (c := '}') (by decide)]
  | object _ t ht => exact readValue_members extra ht (reads_of_denotes extra ht) hn rest

/-- A text of the grammar, with whitespace around it, is read. -/
theorem read_of_denotes {v : Doc} {w₁ t w₂ : List Char} (hw₁ : Blank w₁)
    (h : Denotes (.value v) t) (hw₂ : Blank w₂) : read extra (w₁ ++ (t ++ w₂)) = some v := by
  have hv : readValue extra ((w₁ ++ (t ++ w₂)).length + 1) (t ++ w₂) = some (v, w₂) := by
    refine readValue_of_denotes extra h ?_ ?_
    · simp only [List.length_append]
      omega
    · simpa using ends_blank hw₂ (t := []) (by simp [Ends])
  have hskip : skip w₂ = [] := by simpa [skip] using skip_blank hw₂ []
  simp only [read, skip_denotes hw₁ h, hv, hskip, if_pos]

end reads

example : read [] "\x7b\"a\": [1, -2.5e3, null]\x7d".toList =
    some (.object [([97], .array [.number ['1'], .number "-2.5e3".toList, .null])]) := by
  rfl

end JsonText
end Lib
end AutoSRE
