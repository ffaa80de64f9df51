import AutoSRE.Python.Loads
import AutoSRE.Python.Render

/-!
# The JSON in an answer (`core/graph_helpers.py`)

- **The cascade** (`tryParseJson`). `json.loads` of the text, of what its fences leave, of the first
  balanced value in that, and of two greedy matches. Only a `JSONDecodeError` leads on.
- **The balanced scan** (`scan_exact`). It takes an object or an array of the grammar as a whole,
  with the brackets, quotes and escapes in its strings, whatever follows.
- **Extraction** (`extracted`). An object after prose without brackets is found, unless the fences
  of the text, or the start of the prose, keep the scan from it; when the fences cut the object and
  leave no bracket, nothing is found. In a `json` fence it is found, unless the prose starts with a
  number that is too long.
-/

namespace AutoSRE
namespace Core
namespace Extraction

open Py
open Lib.JsonText (Doc Form Denotes Blank Chars)

/-! ## Fences -/

/-- `text.find(needle)`; `none` is `-1`. -/
def find (needle : List Char) : List Char → Option Nat
  | [] => if needle = [] then some 0 else none
  | c :: cs => if needle.isPrefixOf (c :: cs) then some 0 else (find needle cs).map (· + 1)

/-- `text.rfind(needle)`; `none` is `-1`. -/
def rfind (needle : List Char) : List Char → Option Nat
  | [] => if needle = [] then some 0 else none
  | c :: cs =>
    match rfind needle cs with
    | some i => some (i + 1)
    | none => if needle.isPrefixOf (c :: cs) then some 0 else none

/-- The mark of a code fence. -/
def fence : List Char := ['`', '`', '`']

/-- The text after its first line; all of it if it has one line only. -/
def dropTag (inner : List Char) : List Char :=
  if '\n' ∈ inner then (inner.dropWhile (· != '\n')).tail else inner

/-- `_strip_code_fence`. -/
def stripCodeFence (text : List Char) : List Char :=
  let stripped := stripChars text
  match find fence stripped, rfind fence stripped with
  | some first, some last =>
    if last ≤ first then stripped
    else stripChars (dropTag ((stripped.take last).drop (first + 3)))
  | _, _ => stripped

/-! ## Scans -/

/-- The loop of `_balanced_scan`, from a character of the text on: the rest of the candidate. -/
def scanFrom (opener closer : Char) : Nat → Bool → Bool → List Char → Option (List Char)
  | _, _, _, [] => none
  | depth, inString, escape, char :: cs =>
    if escape then (scanFrom opener closer depth inString false cs).map (char :: ·)
    else if char = '\\' ∧ inString then
      (scanFrom opener closer depth inString true cs).map (char :: ·)
    else if char = '"' then (scanFrom opener closer depth (!inString) false cs).map (char :: ·)
    else if inString then (scanFrom opener closer depth inString false cs).map (char :: ·)
    else if char = opener then
      (scanFrom opener closer (depth + 1) inString false cs).map (char :: ·)
    else if char = closer then
      if depth - 1 = 0 then some [char]
      else (scanFrom opener closer (depth - 1) inString false cs).map (char :: ·)
    else (scanFrom opener closer depth inString false cs).map (char :: ·)

/-- `_balanced_scan`, of the text from `start` on. -/
def balancedScan (opener closer : Char) (text : List Char) : Option (List Char) :=
  if text.head? = some opener then scanFrom opener closer 0 false false text else none

/-- `_first_json_value`. -/
def firstJsonValue : List Char → Option (List Char)
  | [] => none
  | char :: cs =>
    if char = '{' then (balancedScan '{' '}' (char :: cs)).or (firstJsonValue cs)
    else if char = '[' then (balancedScan '[' ']' (char :: cs)).or (firstJsonValue cs)
    else firstJsonValue cs

/-- What `_JSON_OBJECT_RE` and `_JSON_ARRAY_RE` find: from the first opener to the last closer. -/
def greedyMatch (opener closer : Char) (text : List Char) : Option (List Char) :=
  let tail := text.dropWhile (· != opener)
  let found := (tail.reverse.dropWhile (· != closer)).reverse
  if found = [] then none else some found

/-! ## The cascade -/

/-- `json.loads`, with what the code does on a `JSONDecodeError`. An error is the text of a
`ValueError`. -/
def loadsOr (text : List Char) (next : Except String Doc) : Except String Doc :=
  match loads text with
  | .ok v => .ok v
  | .error .decode => next
  | .error (.value msg) => .error msg

/-- The same for a candidate, if there is one. -/
def candidateOr (candidate : Option (List Char)) (next : Except String Doc) : Except String Doc :=
  match candidate with
  | none => next
  | some text => loadsOr text next

/-- The third stage of `_try_parse_json` and the fourth. -/
def scanned (text : List Char) : Except String Doc :=
  candidateOr (firstJsonValue text) <| candidateOr (greedyMatch '{' '}' text) <|
    candidateOr (greedyMatch '[' ']' text) <| .error "no valid JSON payload found"

/-- `_try_parse_json`. -/
def tryParseJson (text : List Char) : Except String Doc :=
  loadsOr text <|
    let unfenced := stripCodeFence text
    if unfenced = text then scanned text else loadsOr unfenced (scanned unfenced)

/-- `type(payload).__name__`. -/
def typeName : Doc → String
  | .null => "NoneType"
  | .bool _ => "bool"
  | .number literal => if literal.all fun c => c.isDigit || c == '-' then "int" else "float"
  | .string _ => "str"
  | .array _ => "list"
  | .object _ => "dict"

/-- The answer to a payload, or to the `ValueError` of the cascade. -/
def respond (stage : String) (allowArray : Bool) (text : List Char) :
    Except String Doc → Except PyExc Doc
  | .error exc =>
    let snippet := (text.take 200).map fun c => if c = '\n' then ' ' else c
    .error (.valueError (stage ++ " response was not valid JSON: " ++ exc ++ "; got: " ++
      Py.reprStr (String.ofList snippet)))
  | .ok (.object ms) => .ok (.object ms)
  | .ok (.array items) =>
    if allowArray then .ok (.object [("items".toList.map (·.toNat), .array items)])
    else .error (.valueError (stage ++ " response must be a JSON object, got a list"))
  | .ok payload =>
    .error (.valueError (stage ++ " response must be a JSON object, got " ++ typeName payload))

/-- `parse_json_response`, of a content that is a text. -/
def parseJsonResponse (stage : String) (allowArray : Bool) (content : List Char) :
    Except PyExc Doc :=
  let text := stripChars content
  if text = [] then .error (.valueError (stage ++ " response was empty"))
  else respond stage allowArray text (tryParseJson text)

/-! ## The balanced scan -/

/-- The kinds of brackets that the code scans for. -/
inductive Brackets : Char → Char → Prop
  | braces : Brackets '{' '}'
  | squares : Brackets '[' ']'

/-- The scan for a kind of brackets passes over the text: it comes out of it as it went in. -/
def PassedBy (opener closer : Char) (t : List Char) : Prop :=
  ∀ depth rest, 0 < depth → scanFrom opener closer depth false false (t ++ rest) =
    (scanFrom opener closer depth false false rest).map (t ++ ·)

/-- The scan passes over the character. -/
def isNeutral (c : Char) : Bool := c != '"' && c != '{' && c != '}'

/-- Every scan passes over the character. -/
def isPlain (c : Char) : Bool := isNeutral c && c != '[' && c != ']'

section Scan

variable {o c : Char}

/-- A character that is neither a quote nor one of the brackets. -/
theorem scanFrom_other {ch : Char} (hq : ch ≠ '"') (ho : ch ≠ o) (hc : ch ≠ c) (depth : Nat)
    (r : List Char) : scanFrom o c depth false false (ch :: r) =
      (scanFrom o c depth false false r).map (ch :: ·) := by
  rw [scanFrom]
  simp [hq, ho, hc]

theorem PassedBy.nil : PassedBy o c [] := by
  intro depth rest _
  simp

theorem PassedBy.append {t u : List Char} (ht : PassedBy o c t) (hu : PassedBy o c u) :
    PassedBy o c (t ++ u) := by
  intro depth rest hd
  rw [List.append_assoc, ht depth _ hd, hu depth _ hd, Option.map_map]
  simp [Function.comp_def]

theorem PassedBy.cons (hb : Brackets o c) {ch : Char} (hch : isPlain ch = true) {t : List Char}
    (ht : PassedBy o c t) : PassedBy o c (ch :: t) := by
  intro depth rest hd
  simp only [isPlain, isNeutral, Bool.and_eq_true, bne_iff_ne] at hch
  obtain ⟨⟨⟨⟨hq, hopen⟩, hclose⟩, hsquare⟩, hsquare'⟩ := hch
  have hstep : scanFrom o c depth false false (ch :: (t ++ rest)) =
      (scanFrom o c depth false false (t ++ rest)).map (ch :: ·) := by
    cases hb with
    | braces => exact scanFrom_other hq hopen hclose depth _
    | squares => exact scanFrom_other hq hsquare hsquare' depth _
  rw [List.cons_append, hstep, ht depth rest hd]
  simp [Function.comp_def]

theorem PassedBy.comma (hb : Brackets o c) {t : List Char} (ht : PassedBy o c t) :
    PassedBy o c (',' :: t) := ht.cons hb (by decide)

theorem PassedBy.colon (hb : Brackets o c) {t : List Char} (ht : PassedBy o c t) :
    PassedBy o c (':' :: t) := ht.cons hb (by decide)

theorem passedBy_of_plain (hb : Brackets o c) {t : List Char}
    (h : ∀ ch ∈ t, isPlain ch = true) : PassedBy o c t := by
  induction t with
  | nil => exact .nil
  | cons ch t ih =>
    exact (ih fun d hd => h d (List.mem_cons_of_mem ch hd)).cons hb (h ch List.mem_cons_self)

theorem passedBy_of_blank (hb : Brackets o c) {w : List Char} (h : Blank w) : PassedBy o c w := by
  refine passedBy_of_plain hb fun ch hch => ?_
  have hs := h ch hch
  simp only [Lib.JsonText.isSpace, Bool.or_eq_true, beq_iff_eq] at hs
  rcases hs with ((rfl | rfl) | rfl) | rfl <;> decide

theorem passedBy_of_number (hb : Brackets o c) {t : List Char}
    (h : Lib.JsonText.isNumber t = true) : PassedBy o c t := by
  refine passedBy_of_plain hb fun ch hch => ?_
  have hn := Lib.JsonText.isNumber_chars h ch hch
  simp only [isPlain, isNeutral, Bool.and_eq_true, bne_iff_ne]
  refine ⟨⟨⟨⟨?_, ?_⟩, ?_⟩, ?_⟩, ?_⟩ <;> rintro rfl <;> revert hn <;> decide

theorem ne_of_hexDigit {d e : Char} (he : Lib.JsonText.hexDigit e = none) {n : Nat}
    (h : Lib.JsonText.hexDigit d = some n) : d ≠ e := by
  rintro rfl
  rw [he] at h
  cases h

/-- Inside of a string the scan comes out at its closing quote. -/
theorem scanFrom_chars {s : List Nat} {t : List Char} (h : Chars s t) (depth : Nat)
    (rest : List Char) : scanFrom o c depth true false (t ++ '"' :: rest) =
      (scanFrom o c depth false false rest).map (t ++ '"' :: ·) := by
  have step : ∀ d r, d ≠ '"' → d ≠ '\\' → scanFrom o c depth true false (d :: r) =
      (scanFrom o c depth true false r).map (d :: ·) := by
    intro d r hq hb
    rw [scanFrom]
    simp [hq, hb]
  have hescape : ∀ e r, scanFrom o c depth true false ('\\' :: e :: r) =
      (scanFrom o c depth true false r).map ('\\' :: e :: ·) := by
    intro e r
    simp [scanFrom, Function.comp_def]
  induction h with
  | nil => simp [scanFrom]
  | plain d hd hq hb _ ih =>
    rw [List.cons_append, step d _ hq hb, ih, Option.map_map]
    rfl
  | escape e d he _ ih =>
    rw [List.cons_append, List.cons_append, hescape, ih, Option.map_map]
    rfl
  | unicode x₁ x₂ x₃ x₄ n hn _ ih =>
    have hhex : ∀ x ∈ [x₁, x₂, x₃, x₄], x ≠ '"' ∧ x ≠ '\\' := by
      unfold Lib.JsonText.hex4 at hn
      split at hn
      · rename_i h₁ h₂ h₃ h₄
        simp only [List.mem_cons, List.not_mem_nil, or_false]
        rintro x (rfl | rfl | rfl | rfl)
        · exact ⟨ne_of_hexDigit (by decide) h₁, ne_of_hexDigit (by decide) h₁⟩
        · exact ⟨ne_of_hexDigit (by decide) h₂, ne_of_hexDigit (by decide) h₂⟩
        · exact ⟨ne_of_hexDigit (by decide) h₃, ne_of_hexDigit (by decide) h₃⟩
        · exact ⟨ne_of_hexDigit (by decide) h₄, ne_of_hexDigit (by decide) h₄⟩
      · cases hn
    simp only [List.forall_mem_cons] at hhex
    obtain ⟨⟨hq₁, hb₁⟩, ⟨hq₂, hb₂⟩, ⟨hq₃, hb₃⟩, ⟨hq₄, hb₄⟩, -⟩ := hhex
    simp only [List.cons_append]
    rw [hescape, step x₁ _ hq₁ hb₁, step x₂ _ hq₂ hb₂, step x₃ _ hq₃ hb₃, step x₄ _ hq₄ hb₄, ih]
    simp [Function.comp_def]

/-- The scan passes over a string. -/
theorem PassedBy.string {s : List Nat} {t u : List Char} (h : Chars s t)
    (hu : PassedBy o c u) : PassedBy o c ('"' :: (t ++ '"' :: u)) := by
  intro depth rest hd
  have hopen : ∀ r, scanFrom o c depth false false ('"' :: r) =
      (scanFrom o c depth true false r).map ('"' :: ·) := by
    intro r
    rw [scanFrom]
    simp
  rw [List.cons_append, List.append_assoc, List.cons_append, hopen, scanFrom_chars h,
    hu depth rest hd]
  simp [Function.comp_def]

/-- The brackets are two characters, and no quotes. -/
theorem Brackets.ne (hb : Brackets o c) : o ≠ '"' ∧ c ≠ '"' ∧ c ≠ o := by
  cases hb with
  | braces => decide
  | squares => decide

theorem scanFrom_opener (hb : Brackets o c) (depth : Nat) (r : List Char) :
    scanFrom o c depth false false (o :: r) =
      (scanFrom o c (depth + 1) false false r).map (o :: ·) := by
  rw [scanFrom]
  simp [hb.ne]

/-- The closer of an inner pair. -/
theorem scanFrom_closer (hb : Brackets o c) {depth : Nat} (hd : 0 < depth) (r : List Char) :
    scanFrom o c (depth + 1) false false (c :: r) =
      (scanFrom o c depth false false r).map (c :: ·) := by
  rw [scanFrom]
  simp [hb.ne, Nat.ne_of_gt hd]

/-- The closer of the outermost pair. -/
theorem scanFrom_last (hb : Brackets o c) (r : List Char) :
    scanFrom o c 1 false false (c :: r) = some [c] := by
  rw [scanFrom]
  simp [hb.ne]

/-- The scan passes over an inner pair of brackets of its own kind. -/
theorem PassedBy.nested (hb : Brackets o c) {t : List Char} (ht : PassedBy o c t) :
    PassedBy o c (o :: (t ++ [c])) := by
  intro depth rest hd
  rw [List.cons_append, List.append_assoc, List.cons_append, List.nil_append,
    scanFrom_opener hb, ht (depth + 1) _ (by omega), scanFrom_closer hb hd]
  simp [Function.comp_def]

/-- The scan passes over an inner pair of brackets. -/
theorem PassedBy.pair (hb : Brackets o c) {o' c' : Char} (hb' : Brackets o' c') {t : List Char}
    (ht : PassedBy o c t) : PassedBy o c (o' :: (t ++ [c'])) := by
  -- Brackets of the other kind are characters like any other.
  have hother : o' ≠ o → o' ≠ c → c' ≠ o → c' ≠ c → PassedBy o c (o' :: (t ++ [c'])) := by
    intro h₁ h₂ h₃ h₄ depth rest hd
    rw [List.cons_append, List.append_assoc, List.cons_append, List.nil_append,
      scanFrom_other hb'.ne.1 h₁ h₂, ht depth _ hd, scanFrom_other hb'.ne.2.1 h₃ h₄]
    simp [Function.comp_def]
  cases hb with
  | braces =>
    cases hb' with
    | braces => exact ht.nested .braces
    | squares => exact hother (by decide) (by decide) (by decide) (by decide)
  | squares =>
    cases hb' with
    | braces => exact hother (by decide) (by decide) (by decide) (by decide)
    | squares => exact ht.nested .squares

/-- The scan passes over what the grammar has. -/
theorem passedBy_of_denotes (hb : Brackets o c) {f : Form} {t : List Char} (h : Denotes f t) :
    PassedBy o c t := by
  induction h with
  | null => exact passedBy_of_plain hb (List.all_eq_true.mp rfl)
  | true => exact passedBy_of_plain hb (List.all_eq_true.mp rfl)
  | false => exact passedBy_of_plain hb (List.all_eq_true.mp rfl)
  | number t ht => exact passedBy_of_number hb ht
  | string s t hs => exact PassedBy.nil.string hs
  | emptyArray w hw => exact (passedBy_of_blank hb hw).pair hb .squares
  | array vs t _ ih => exact ih.pair hb .squares
  | emptyObject w hw => exact (passedBy_of_blank hb hw).pair hb .braces
  | object ms t _ ih => exact ih.pair hb .braces
  | lastItem v w₁ t w₂ hw₁ _ hw₂ ih =>
    exact (passedBy_of_blank hb hw₁).append (ih.append (passedBy_of_blank hb hw₂))
  | item v vs w₁ t w₂ t' hw₁ _ hw₂ _ ih ih' =>
    have htail := (passedBy_of_blank hb hw₂).append (ih'.comma hb)
    exact (passedBy_of_blank hb hw₁).append (ih.append htail)
  | lastMember k v w₁ kt w₂ w₃ t w₄ hw₁ hk hw₂ hw₃ _ hw₄ ih =>
    have hvalue := (passedBy_of_blank hb hw₃).append (ih.append (passedBy_of_blank hb hw₄))
    have hkey := (passedBy_of_blank hb hw₂).append (hvalue.colon hb)
    exact (passedBy_of_blank hb hw₁).append (hkey.string hk)
  | member k v ms w₁ kt w₂ w₃ t w₄ t' hw₁ hk hw₂ hw₃ _ hw₄ _ ih ih' =>
    have htail := (passedBy_of_blank hb hw₄).append (ih'.comma hb)
    have hvalue := (passedBy_of_blank hb hw₃).append (ih.append htail)
    have hkey := (passedBy_of_blank hb hw₂).append (hvalue.colon hb)
    exact (passedBy_of_blank hb hw₁).append (hkey.string hk)

/-- The brackets of an object or an array. -/
def brackets : Doc → Option (Char × Char)
  | .object _ => some ('{', '}')
  | .array _ => some ('[', ']')
  | _ => none

/-- The text of an object or an array is its brackets, around a text that their scan passes over. -/
theorem text_brackets {v : Doc} {t : List Char} (h : Denotes (.value v) t)
    (hv : brackets v = some (o, c)) :
    Brackets o c ∧ ∃ m, t = o :: (m ++ [c]) ∧ PassedBy o c m := by
  cases h with
  | null => cases hv
  | true => cases hv
  | false => cases hv
  | number _ _ => cases hv
  | string _ _ _ => cases hv
  | emptyArray w hw =>
    cases hv
    exact ⟨.squares, w, rfl, passedBy_of_blank .squares hw⟩
  | array vs t ht =>
    cases hv
    exact ⟨.squares, t, rfl, passedBy_of_denotes .squares ht⟩
  | emptyObject w hw =>
    cases hv
    exact ⟨.braces, w, rfl, passedBy_of_blank .braces hw⟩
  | object ms t ht =>
    cases hv
    exact ⟨.braces, t, rfl, passedBy_of_denotes .braces ht⟩

/-- The balanced scan takes an object or an array as a whole. -/
theorem balancedScan_text {v : Doc} {t : List Char} (h : Denotes (.value v) t)
    (hv : brackets v = some (o, c)) (rest : List Char) :
    balancedScan o c (t ++ rest) = some t := by
  obtain ⟨hb, m, rfl, hm⟩ := text_brackets h hv
  simp only [balancedScan, List.cons_append, List.append_assoc, List.nil_append, List.head?_cons,
    if_true, scanFrom_opener hb, hm 1 _ Nat.one_pos, scanFrom_last hb, Option.map_some]

/-- The object or the array is the first value after prose. -/
theorem firstJsonValue_text {p : List Char} (hp : ∀ ch ∈ p, ch ≠ '{' ∧ ch ≠ '[') {v : Doc}
    {t : List Char} (h : Denotes (.value v) t) (hv : brackets v = some (o, c))
    (rest : List Char) : firstJsonValue (p ++ (t ++ rest)) = some t := by
  induction p with
  | nil =>
    obtain ⟨hb, m, ht, -⟩ := text_brackets h hv
    have hscan := balancedScan_text h hv rest
    rw [ht, List.cons_append] at hscan
    rw [List.nil_append, ht, List.cons_append, firstJsonValue]
    cases hb with
    | braces => rw [if_pos rfl, hscan, Option.some_or]
    | squares => rw [if_neg (by decide), if_pos rfl, hscan, Option.some_or]
  | cons ch p ih =>
    obtain ⟨hbrace, hbracket⟩ := hp ch List.mem_cons_self
    rw [List.cons_append, firstJsonValue, if_neg hbrace, if_neg hbracket]
    exact ih fun d hd => hp d (List.mem_cons_of_mem ch hd)

end Scan

/-- The balanced scan finds exactly the text of an object or an array, whatever follows it, and
`_first_json_value` finds it after prose without brackets. -/
theorem scan_exact {v : Doc} {o c : Char} {s : List Char} (h : Denotes (.value v) s)
    (hv : brackets v = some (o, c)) :
    (∀ t, balancedScan o c (s ++ t) = some s) ∧
    ∀ p t, (∀ ch ∈ p, ch ≠ '{' ∧ ch ≠ '[') → firstJsonValue (p ++ (s ++ t)) = some s :=
  ⟨fun t => balancedScan_text h hv t, fun _ t hp => firstJsonValue_text hp h hv t⟩

/-- The text of an object is braces around a text that the scan passes over. -/
theorem object_braces {ms : List (List Nat × Doc)} {t : List Char}
    (h : Denotes (.value (.object ms)) t) : ∃ m, t = '{' :: (m ++ ['}']) ∧ PassedBy '{' '}' m :=
  (text_brackets h rfl).2

/-! ## The text around an object -/

/-- `text.lstrip()`. -/
def lstrip (text : List Char) : List Char := text.dropWhile isSpace

/-- `text.rstrip()`. -/
def rstrip (text : List Char) : List Char := (text.reverse.dropWhile isSpace).reverse

/-- A text of an object, after prose without brackets and before anything, in a stripped text. -/
structure Around (ms : List (List Nat × Doc)) (p t x : List Char) : Prop where
  denotes : Denotes (.value (.object ms)) t
  fits : docFits (.object ms) = true
  prose : ∀ c ∈ p, c ≠ '{' ∧ c ≠ '['
  head : ∀ c ∈ p.head?, isSpace c = false
  last : ∀ c ∈ x.getLast?, isSpace c = false

/-- `json.loads` refuses an integer of the text for its length. -/
def Refused (text : List Char) : Prop := ∃ msg, loads text = .error (.value msg)

/-- `json.loads` neither refuses an integer of the text nor reads the text as a string. -/
def Passes (text : List Char) : Prop := ¬ Refused text ∧ ∀ s, loads text ≠ .ok (.string s)

theorem passes_of_decode {text : List Char} (h : loads text = .error .decode) : Passes text := by
  constructor
  · rintro ⟨msg, hmsg⟩
    rw [h] at hmsg
    cases hmsg
  · intro s hs
    rw [h] at hs
    cases hs

theorem dropWhile_append_cons {q : Char → Bool} {c : Char} (hc : q c = false)
    (l r : List Char) : (l ++ c :: r).dropWhile q = l.dropWhile q ++ c :: r := by
  induction l with
  | nil => exact List.dropWhile_cons_of_neg (by simp [hc])
  | cons d l ih =>
    rw [List.cons_append, List.dropWhile_cons, List.dropWhile_cons]
    split
    · exact ih
    · rfl

theorem lstrip_append {c : Char} (hc : isSpace c = false) (l r : List Char) :
    lstrip (l ++ c :: r) = lstrip l ++ c :: r := dropWhile_append_cons hc l r

theorem rstrip_append {c : Char} (hc : isSpace c = false) (l r : List Char) :
    rstrip (l ++ c :: r) = l ++ c :: rstrip r := by
  have hrev : (l ++ c :: r).reverse = r.reverse ++ c :: l.reverse := by simp
  rw [rstrip, hrev, dropWhile_append_cons hc]
  simp [rstrip]

/-- Stripping leaves the object where it is. -/
theorem stripChars_around {ms : List (List Nat × Doc)} {t : List Char}
    (h : Denotes (.value (.object ms)) t) (p x : List Char) :
    stripChars (p ++ (t ++ x)) = lstrip p ++ (t ++ rstrip x) := by
  obtain ⟨m, rfl, -⟩ := object_braces h
  have hl : lstrip (p ++ (('{' :: (m ++ ['}'])) ++ x)) = lstrip p ++ '{' :: (m ++ '}' :: x) := by
    simpa using lstrip_append (c := '{') (by decide) p (m ++ '}' :: x)
  have hr := rstrip_append (c := '}') (by decide) (lstrip p ++ '{' :: m) x
  have hs : stripChars (p ++ (('{' :: (m ++ ['}'])) ++ x)) =
      rstrip (lstrip p ++ '{' :: (m ++ '}' :: x)) := congrArg rstrip hl
  rw [hs]
  simpa using hr

theorem lstrip_head (p : List Char) : ∀ c ∈ (lstrip p).head?, isSpace c = false := by
  intro c hc
  have := List.head?_dropWhile_not isSpace p
  rw [lstrip, Option.mem_def] at hc
  simpa [hc] using this

theorem rstrip_last (x : List Char) : ∀ c ∈ (rstrip x).getLast?, isSpace c = false := by
  intro c hc
  rw [rstrip, List.getLast?_reverse] at hc
  exact lstrip_head x.reverse c hc

theorem around_strip {ms : List (List Nat × Doc)} {p t x : List Char}
    (h : Denotes (.value (.object ms)) t) (hf : docFits (.object ms) = true)
    (hp : ∀ c ∈ p, c ≠ '{' ∧ c ≠ '[') : Around ms (lstrip p) t (rstrip x) where
  denotes := h
  fits := hf
  prose c hc := hp c ((List.dropWhile_suffix _).subset hc)
  head := lstrip_head p
  last := rstrip_last x

theorem isSpace_of_json {c : Char} (h : Lib.JsonText.isSpace c = true) : isSpace c = true := by
  simp only [Lib.JsonText.isSpace, Bool.or_eq_true, beq_iff_eq] at h
  rcases h with ((rfl | rfl) | rfl) | rfl <;> decide

section Around

variable {ms : List (List Nat × Doc)} {p t x : List Char} (h : Around ms p t x)

include h

/-- The text is stripped. -/
theorem Around.stripped : stripChars (p ++ (t ++ x)) = p ++ (t ++ x) := by
  have hp : lstrip p = p := by
    cases p with
    | nil => rfl
    | cons c p => exact List.dropWhile_cons_of_neg (by simp [h.head c rfl])
  have hx : rstrip x = x := by
    have hrev : x.reverse.dropWhile isSpace = x.reverse := by
      cases hr : x.reverse with
      | nil => rfl
      | cons c r =>
        have hc : isSpace c = false := h.last c (by rw [← List.head?_reverse, hr]; rfl)
        exact List.dropWhile_cons_of_neg (by simp [hc])
    rw [rstrip, hrev, List.reverse_reverse]
  rw [stripChars_around h.denotes, hp, hx]

theorem Around.ne_nil : p ++ (t ++ x) ≠ [] := by
  obtain ⟨m, rfl, -⟩ := object_braces h.denotes
  simp

/-- What follows the object is blank only if it is empty. -/
theorem Around.skip_ne (hx : x ≠ []) : Lib.JsonText.skip x ≠ [] := by
  intro hs
  obtain ⟨c, hc⟩ := Option.ne_none_iff_exists'.mp (mt List.getLast?_eq_none_iff.mp hx)
  have hsp := isSpace_of_json (skip_eq_nil hs c (List.mem_of_getLast? hc))
  rw [h.last c hc] at hsp
  cases hsp

/-- Prose with a line break is not the start of a string. -/
theorem Around.loads_cons {c : Char} {p' : List Char} (hp : p = c :: p') {v : Doc}
    (hv : loads (p ++ (t ++ x)) = .ok v) : (∃ s, v = .string s) ∧ '\n' ∉ p' := by
  obtain ⟨m, ht, -⟩ := object_braces h.denotes
  subst hp
  obtain ⟨hbrace, hbracket⟩ := h.prose c List.mem_cons_self
  have hc : Lib.JsonText.isSpace c = false := by
    refine Bool.eq_false_iff.mpr fun hsp => ?_
    have := isSpace_of_json hsp
    rw [h.head c rfl] at this
    cases this
  rw [ht] at hv
  exact loads_prose hc hbrace hbracket (by simpa using hv)

/-- How `json.loads` ends for the text. -/
theorem Around.loads_cases : Refused (p ++ (t ++ x)) ∨
    (∃ s, loads (p ++ (t ++ x)) = .ok (.string s)) ∨
    (p ++ (t ++ x) = t ∧ loads (p ++ (t ++ x)) = .ok (.object ms)) ∨
    (p ++ (t ++ x) ≠ t ∧ loads (p ++ (t ++ x)) = .error .decode) := by
  cases p with
  | nil =>
    have hl := loads_object h.denotes h.fits x
    by_cases hx : x = []
    · subst hx
      have hnil : Lib.JsonText.skip [] = [] := rfl
      rw [if_pos hnil] at hl
      exact .inr (.inr (.inl ⟨by simp, hl⟩))
    · rw [if_neg (h.skip_ne hx)] at hl
      exact .inr (.inr (.inr ⟨by simpa using hx, hl⟩))
  | cons c p' =>
    have hne : c :: p' ++ (t ++ x) ≠ t := by
      intro heq
      have := congrArg List.length heq
      simp at this
      omega
    cases hl : loads (c :: p' ++ (t ++ x)) with
    | ok v =>
      obtain ⟨⟨s, rfl⟩, -⟩ := h.loads_cons rfl hl
      exact .inr (.inl ⟨s, rfl⟩)
    | error e =>
      cases e with
      | decode => exact .inr (.inr (.inr ⟨hne, rfl⟩))
      | value msg => exact .inl ⟨msg, hl⟩

/-- The first stage, of the text or of what its fences leave: the answer is the object exactly if
`json.loads` lets the text pass, and the text is the object or the later stages find it. -/
theorem Around.loadsOr_iff (stage : String) (allowArray : Bool) (text : List Char)
    (next : Except String Doc) :
    respond stage allowArray text (loadsOr (p ++ (t ++ x)) next) = .ok (.object ms) ↔
      Passes (p ++ (t ++ x)) ∧ (p ++ (t ++ x) = t ∨
        respond stage allowArray text next = .ok (.object ms)) := by
  rcases h.loads_cases with ⟨msg, hl⟩ | ⟨s, hl⟩ | ⟨heq, hl⟩ | ⟨hne, hl⟩
  · simp [loadsOr, hl, respond, Passes, Refused]
  · simp [loadsOr, hl, respond, Passes]
  · rw [heq] at hl ⊢
    simp [loadsOr, hl, respond, Passes, Refused]
  · simp [loadsOr, hl, Passes, Refused, hne]

/-- The third stage finds the object. -/
theorem Around.scanned_eq : scanned (p ++ (t ++ x)) = .ok (.object ms) := by
  have hblank : Blank [] := fun _ hc => absurd hc List.not_mem_nil
  have hl : loads t = .ok (.object ms) := by
    simpa using loads_of_denotes hblank h.denotes hblank h.fits
  rw [scanned, firstJsonValue_text h.prose h.denotes rfl, candidateOr, loadsOr, hl]

/-- Prose that is empty or has a line break does not let `json.loads` read a string. -/
theorem Around.passes_iff (hp : p = [] ∨ '\n' ∈ p) :
    Passes (p ++ (t ++ x)) ↔ ¬ Refused (p ++ (t ++ x)) := by
  refine and_iff_left fun s hl => ?_
  cases p with
  | nil =>
    have := loads_object h.denotes h.fits x
    rw [List.nil_append, this] at hl
    split at hl <;> cases hl
  | cons c p' =>
    obtain ⟨-, hbreak⟩ := h.loads_cons rfl hl
    rcases List.mem_cons.mp (hp.resolve_left (List.cons_ne_nil c p')) with rfl | hmem
    · have := h.head '\n' rfl
      revert this
      decide
    · exact hbreak hmem

end Around

/-! ## What the fences leave -/

/-- The text has two marks of a fence. They may overlap. -/
def Fenced (text : List Char) : Prop :=
  ∃ i j, find fence text = some i ∧ rfind fence text = some j ∧ i < j

/-- The text between the first mark and the last has the object, and the line that goes with the
first mark ends before the object, if there is a line break between the marks. -/
def Intact (p t x : List Char) : Prop :=
  ∃ i j, find fence (p ++ (t ++ x)) = some i ∧ rfind fence (p ++ (t ++ x)) = some j ∧
    i + 3 ≤ p.length ∧ p.length + t.length ≤ j ∧
    ('\n' ∈ p.drop (i + 3) ∨ '\n' ∉ t ++ x.take (j - (p.length + t.length)))

theorem stripCodeFence_of_not_fenced {text : List Char} (hs : stripChars text = text)
    (h : ¬ Fenced text) : stripCodeFence text = text := by
  unfold stripCodeFence
  rw [hs]
  dsimp only
  split
  · rename_i i j hi hj
    have : j ≤ i := Nat.not_lt.mp fun hij => h ⟨i, j, hi, hj, hij⟩
    rw [if_pos this]
  · rfl

theorem stripCodeFence_eq {text : List Char} (hs : stripChars text = text) {i j : Nat}
    (hi : find fence text = some i) (hj : rfind fence text = some j) (hij : i < j) :
    stripCodeFence text = stripChars (dropTag ((text.take j).drop (i + 3))) := by
  unfold stripCodeFence
  rw [hs]
  simp only [hi, hj]
  rw [if_neg (by omega)]

/-- `_strip_code_fence` strips its text. -/
theorem stripCodeFence_stripChars {text : List Char}
    (hs : stripChars (stripChars text) = stripChars text) :
    stripCodeFence (stripChars text) = stripCodeFence text := by
  unfold stripCodeFence
  rw [hs]

theorem dropTag_suffix (inner : List Char) : dropTag inner <:+ inner := by
  unfold dropTag
  split
  · exact (List.tail_suffix _).trans (List.dropWhile_suffix _)
  · exact List.suffix_refl inner

theorem stripChars_length (text : List Char) : (stripChars text).length ≤ text.length := by
  have h₁ := (List.dropWhile_suffix (l := text) isSpace).length_le
  have h₂ := (List.dropWhile_suffix (l := (text.dropWhile isSpace).reverse) isSpace).length_le
  rw [List.length_reverse] at h₂
  rw [stripChars, List.length_reverse]
  exact h₂.trans h₁

/-- The fences take something away. -/
theorem stripCodeFence_ne {text : List Char} (hs : stripChars text = text) (hne : text ≠ [])
    (h : Fenced text) : stripCodeFence text ≠ text := by
  obtain ⟨i, j, hi, hj, hij⟩ := h
  rw [stripCodeFence_eq hs hi hj hij]
  intro heq
  have hlen := congrArg List.length heq
  have h₁ := stripChars_length (dropTag ((text.take j).drop (i + 3)))
  have h₂ := (dropTag_suffix ((text.take j).drop (i + 3))).length_le
  have h₃ := List.length_pos_iff.mpr hne
  simp only [List.length_drop, List.length_take] at h₂
  omega

theorem dropTag_append {q r : List Char} (h : '\n' ∈ q ∨ '\n' ∉ r) :
    dropTag (q ++ r) = dropTag q ++ r := by
  unfold dropTag
  by_cases hq : '\n' ∈ q
  · obtain ⟨a, b, rfl⟩ := List.append_of_mem hq
    have hdrop : ∀ b, (a ++ '\n' :: b).dropWhile (· != '\n') =
        a.dropWhile (· != '\n') ++ '\n' :: b := fun b => dropWhile_append_cons (by decide) a b
    rw [if_pos (List.mem_append_left _ hq), if_pos hq, List.append_assoc, List.cons_append, hdrop,
      hdrop, ← List.tail_append_of_ne_nil (by simp), List.append_assoc, List.cons_append]
  · have hr := h.resolve_left hq
    rw [if_neg (by simp [hq, hr]), if_neg hq]

/-- Between the marks are the rest of the prose, the object, and what follows it. -/
theorem between_marks {p t x : List Char} {i j : Nat} (hi : i + 3 ≤ p.length)
    (hj : p.length + t.length ≤ j) : ((p ++ (t ++ x)).take j).drop (i + 3) =
      p.drop (i + 3) ++ (t ++ x.take (j - (p.length + t.length))) := by
  have htake : (p ++ (t ++ x)).take j = p ++ (t ++ x.take (j - (p.length + t.length))) := by
    rw [List.take_append, List.take_append, List.take_of_length_le (by omega),
      List.take_of_length_le (by omega), Nat.sub_sub]
  rw [htake, List.drop_append_of_le_length hi]

/-- Where the fences leave the object intact, it is still an object after prose. -/
theorem Around.unfenced {ms : List (List Nat × Doc)} {p t x : List Char} (h : Around ms p t x)
    (hin : Intact p t x) : ∃ p' x', Around ms p' t x' ∧ p' <:+ p ∧
      stripCodeFence (p ++ (t ++ x)) = p' ++ (t ++ x') := by
  obtain ⟨i, j, hi, hj, hip, hjt, hline⟩ := hin
  have htail : dropTag (p.drop (i + 3)) <:+ p :=
    (dropTag_suffix _).trans (List.drop_suffix _ _)
  have hprose : ∀ c ∈ dropTag (p.drop (i + 3)), c ≠ '{' ∧ c ≠ '[' :=
    fun c hc => h.prose c (htail.subset hc)
  refine ⟨lstrip (dropTag (p.drop (i + 3))), rstrip (x.take (j - (p.length + t.length))),
    around_strip h.denotes h.fits hprose, (List.dropWhile_suffix _).trans htail, ?_⟩
  rw [stripCodeFence_eq h.stripped hi hj (by omega), between_marks hip hjt, dropTag_append hline,
    stripChars_around h.denotes]

/-- Two marks with an object between them. -/
theorem Intact.fenced {p t x : List Char} (h : Intact p t x) : Fenced (p ++ (t ++ x)) := by
  obtain ⟨i, j, hi, hj, hip, hjt, -⟩ := h
  exact ⟨i, j, hi, hj, by omega⟩

/-- The first mark is not after a mark of the text. -/
theorem find_le (needle a b : List Char) :
    ∃ i, find needle (a ++ (needle ++ b)) = some i ∧ i ≤ a.length := by
  induction a with
  | nil =>
    refine ⟨0, ?_, Nat.le_refl 0⟩
    rw [List.nil_append]
    cases hn : needle ++ b with
    | nil => simp [find, (List.append_eq_nil_iff.mp hn).1]
    | cons c cs => simp [find, ← hn]
  | cons c a ih =>
    obtain ⟨i, hi, hle⟩ := ih
    rw [List.cons_append, find]
    split
    · exact ⟨0, rfl, Nat.zero_le _⟩
    · exact ⟨i + 1, by rw [hi]; rfl, Nat.succ_le_succ hle⟩

/-- The last mark is not before a mark of the text. -/
theorem le_rfind (needle a b : List Char) :
    ∃ j, rfind needle (a ++ (needle ++ b)) = some j ∧ a.length ≤ j := by
  induction a with
  | nil =>
    rw [List.nil_append]
    cases hn : needle ++ b with
    | nil => exact ⟨0, by simp [rfind, (List.append_eq_nil_iff.mp hn).1], Nat.le_refl 0⟩
    | cons c cs =>
      cases hr : rfind needle cs with
      | some i => exact ⟨i + 1, by simp [rfind, hr], Nat.zero_le _⟩
      | none => exact ⟨0, by simp [rfind, hr, ← hn], Nat.le_refl 0⟩
  | cons c a ih =>
    obtain ⟨j, hj, hle⟩ := ih
    exact ⟨j + 1, by rw [List.cons_append, rfind, hj], Nat.succ_le_succ hle⟩

/-! ## Extraction -/

/-- `json.loads` lets the text pass, and the text is the object, it has not two marks of a fence, or
the marks leave the object intact in a text that passes as well. -/
def Found (p t x : List Char) : Prop :=
  Passes (p ++ (t ++ x)) ∧ (p ++ (t ++ x) = t ∨ ¬ Fenced (p ++ (t ++ x)) ∨
    (Intact p t x ∧ Passes (stripCodeFence (p ++ (t ++ x)))))

/-- The marks cut the object, and the text that they leave has a bracket. -/
def CutToBrackets (p t x : List Char) : Prop :=
  Fenced (p ++ (t ++ x)) ∧ ¬ Intact p t x ∧
    ('{' ∈ stripCodeFence (p ++ (t ++ x)) ∨ '[' ∈ stripCodeFence (p ++ (t ++ x)))

/-- `json.loads` of a text without brackets gives neither an object nor an array. -/
theorem loads_without {u : List Char} (hbrace : '{' ∉ u) (hbracket : '[' ∉ u) {v : Doc}
    (h : loads u = .ok v) : (∀ ms, v ≠ .object ms) ∧ ∀ vs, v ≠ .array vs := by
  have hsub : Lib.JsonText.skip u ⊆ u := (List.dropWhile_suffix _).subset
  unfold loads at h
  split at h
  · cases h
  · rename_i v' rest hv
    split at h
    · cases h
      rw [scanOnce.eq_def] at hv
      dsimp only at hv
      split at hv
      · split at hv <;> cases hv
        simp
      · rename_i heq
        exact absurd (hsub (heq ▸ List.mem_cons_self)) hbracket
      · rename_i heq
        exact absurd (hsub (heq ▸ List.mem_cons_self)) hbrace
      iterate 3
        · cases hv
          simp
      · unfold loadNumber at hv
        split at hv
        · cases hv
          simp
        · cases hv
        · split at hv <;> cases hv
          simp
    · cases h

theorem firstJsonValue_without {u : List Char} (hbrace : '{' ∉ u) (hbracket : '[' ∉ u) :
    firstJsonValue u = none := by
  induction u with
  | nil => rfl
  | cons c u ih =>
    simp only [List.mem_cons, not_or] at hbrace hbracket
    rw [firstJsonValue, if_neg (Ne.symm hbrace.1), if_neg (Ne.symm hbracket.1)]
    exact ih hbrace.2 hbracket.2

theorem greedyMatch_without {o c : Char} {u : List Char} (ho : o ∉ u) :
    greedyMatch o c u = none := by
  have hnil : u.dropWhile (· != o) = [] :=
    List.dropWhile_eq_nil_iff.mpr fun x hx => by
      simp only [bne_iff_ne]
      rintro rfl
      exact ho hx
  simp [greedyMatch, hnil]

/-- Nothing is found in a text without brackets. -/
theorem respond_without {u : List Char} (hbrace : '{' ∉ u) (hbracket : '[' ∉ u) (stage : String)
    (allowArray : Bool) (text : List Char) (ms : List (List Nat × Doc)) :
    respond stage allowArray text (loadsOr u (scanned u)) ≠ .ok (.object ms) := by
  have hscanned : scanned u = .error "no valid JSON payload found" := by
    simp [scanned, candidateOr, firstJsonValue_without hbrace hbracket,
      greedyMatch_without hbrace, greedyMatch_without hbracket]
  rw [hscanned, loadsOr]
  cases hl : loads u with
  | error e => cases e <;> simp [respond]
  | ok v =>
    obtain ⟨hobject, harray⟩ := loads_without hbrace hbracket hl
    cases v with
    | object ms' => exact absurd rfl (hobject ms')
    | array vs => exact absurd rfl (harray vs)
    | null | bool | number | string => simp [respond]

/-- The cascade on a stripped text of an object. -/
theorem Around.tryParseJson_found {ms : List (List Nat × Doc)} {p t x : List Char}
    (h : Around ms p t x) (stage : String) (allowArray : Bool) :
    (Found p t x →
      respond stage allowArray (p ++ (t ++ x)) (tryParseJson (p ++ (t ++ x))) =
        .ok (.object ms)) ∧
    (respond stage allowArray (p ++ (t ++ x)) (tryParseJson (p ++ (t ++ x))) = .ok (.object ms) →
      Found p t x ∨ (Passes (p ++ (t ++ x)) ∧ CutToBrackets p t x)) := by
  rw [tryParseJson, h.loadsOr_iff, Found]
  by_cases hf : Fenced (p ++ (t ++ x))
  · rw [if_neg (stripCodeFence_ne h.stripped h.ne_nil hf)]
    by_cases hin : Intact p t x
    · obtain ⟨p', x', h', -, hu⟩ := h.unfenced hin
      rw [hu, h'.loadsOr_iff, h'.scanned_eq]
      simp only [hf, hin, respond, not_true, true_and, false_or, or_true, and_true]
      exact ⟨id, .inl⟩
    · refine ⟨fun hfound => ?_, fun hres => ?_⟩
      · obtain ⟨hpass, heq⟩ : Passes (p ++ (t ++ x)) ∧ p ++ (t ++ x) = t := by
          simpa [hf, hin] using hfound
        exact ⟨hpass, .inl heq⟩
      · obtain ⟨hpass, heq | hrest⟩ := hres
        · exact .inl ⟨hpass, .inl heq⟩
        · refine .inr ⟨hpass, hf, hin, Classical.byContradiction fun hno => ?_⟩
          obtain ⟨hbrace, hbracket⟩ := not_or.mp hno
          exact respond_without hbrace hbracket stage allowArray _ ms hrest
  · rw [stripCodeFence_of_not_fenced h.stripped hf, if_pos rfl, h.scanned_eq]
    simp only [hf, respond, not_false_eq_true, true_or, or_true, and_true]
    exact ⟨id, .inl⟩

theorem parseJsonResponse_eq {ms : List (List Nat × Doc)} {p t x : List Char}
    (h : Denotes (.value (.object ms)) t) (hf : docFits (.object ms) = true)
    (hp : ∀ c ∈ p, c ≠ '{' ∧ c ≠ '[') (stage : String) (allowArray : Bool) :
    parseJsonResponse stage allowArray (p ++ (t ++ x)) =
      respond stage allowArray (lstrip p ++ (t ++ rstrip x))
        (tryParseJson (lstrip p ++ (t ++ rstrip x))) := by
  rw [parseJsonResponse, stripChars_around h, if_neg (around_strip h hf hp).ne_nil]

/-- Prose without brackets, from its evaluation. -/
theorem prose_of_all {p : List Char} (h : (p.all fun c => c != '{' && c != '[') = true) :
    ∀ c ∈ p, c ≠ '{' ∧ c ≠ '[' := by
  simpa using h

/-- The first line of a JSON fence. -/
def openFence : List Char := ['`', '`', '`', 'j', 's', 'o', 'n', '\n']

/-- The end of a fence, after the line before it. -/
def closeFence : List Char := ['\n', '`', '`', '`']

/-- A fence around the object leaves it intact. -/
theorem intact_of_fence (p t x : List Char) : Intact (p ++ openFence) t (closeFence ++ x) := by
  have hfirst : (p ++ openFence) ++ (t ++ (closeFence ++ x)) =
      p ++ (fence ++ (['j', 's', 'o', 'n', '\n'] ++ (t ++ (closeFence ++ x)))) := by
    simp [openFence, fence]
  have hlast : (p ++ openFence) ++ (t ++ (closeFence ++ x)) =
      (p ++ (openFence ++ (t ++ ['\n']))) ++ (fence ++ x) := by
    simp [closeFence, fence]
  obtain ⟨i, hi, hip⟩ := find_le fence p (['j', 's', 'o', 'n', '\n'] ++ (t ++ (closeFence ++ x)))
  obtain ⟨j, hj, hjt⟩ := le_rfind fence (p ++ (openFence ++ (t ++ ['\n']))) x
  rw [← hfirst] at hi
  rw [← hlast] at hj
  have hlen : (p ++ openFence).length = p.length + 8 := by simp [openFence]
  refine ⟨i, j, hi, hj, by omega, ?_, .inl ?_⟩
  · simp only [List.length_append] at hjt ⊢
    omega
  · -- The line break is the last character before the object.
    have hp : p ++ openFence = (p ++ ['`', '`', '`', 'j', 's', 'o', 'n']) ++ ['\n'] := by
      simp [openFence]
    rw [hp, List.drop_append_of_le_length (by simp; omega)]
    simp

/-- A suffix of prose that ends with a line break is empty or has one. -/
theorem suffix_break {s p : List Char} (h : s <:+ p ++ ['\n']) : s = [] ∨ '\n' ∈ s := by
  obtain ⟨a, ha⟩ := h
  rcases List.eq_nil_or_concat s with rfl | ⟨s, c, rfl⟩
  · exact .inl rfl
  · rw [List.concat_eq_append, ← List.append_assoc] at ha
    obtain ⟨-, hc⟩ := List.append_inj' ha rfl
    cases hc
    exact .inr (by simp)

/-- In a JSON fence the object is found, unless `json.loads` refuses an integer. -/
theorem found_fence_iff {ms : List (List Nat × Doc)} {p t x : List Char}
    (h : Around ms (p ++ openFence) t (closeFence ++ x)) (stage : String) (allowArray : Bool) :
    respond stage allowArray ((p ++ openFence) ++ (t ++ (closeFence ++ x)))
      (tryParseJson ((p ++ openFence) ++ (t ++ (closeFence ++ x)))) = .ok (.object ms) ↔
      ¬ Refused ((p ++ openFence) ++ (t ++ (closeFence ++ x))) ∧
      ¬ Refused (stripCodeFence ((p ++ openFence) ++ (t ++ (closeFence ++ x)))) := by
  have hin := intact_of_fence p t x
  have hne : (p ++ openFence) ++ (t ++ (closeFence ++ x)) ≠ t := by
    intro heq
    have := congrArg List.length heq
    simp [openFence] at this
    omega
  have hbreak : p ++ openFence = (p ++ ['`', '`', '`', 'j', 's', 'o', 'n']) ++ ['\n'] := by
    simp [openFence]
  obtain ⟨p', x', h', hp', hu⟩ := h.unfenced hin
  rw [hbreak] at hp'
  have hpass := h.passes_iff (.inr (by simp [openFence]))
  have hpass' := h'.passes_iff (suffix_break hp')
  rw [← hu] at hpass'
  have hfound : Found (p ++ openFence) t (closeFence ++ x) ↔
      ¬ Refused ((p ++ openFence) ++ (t ++ (closeFence ++ x))) ∧
      ¬ Refused (stripCodeFence ((p ++ openFence) ++ (t ++ (closeFence ++ x)))) := by
    simp only [Found, hpass, hpass', hne, hin, hin.fenced, not_true, true_and, false_or]
  rw [← hfound]
  obtain ⟨hto, hof⟩ := h.tryParseJson_found stage allowArray
  exact ⟨fun hres => (hof hres).resolve_right fun hcut => hcut.2.2.1 hin, hto⟩

/-- An object after prose without brackets is found if `Found` says so, and otherwise only where the
marks of fences cut it and leave a bracket. In a JSON fence after such prose it is found exactly if
`json.loads` refuses no integer of the text, or of what the fence leaves. -/
theorem extracted (stage : String) (allowArray : Bool) {ms : List (List Nat × Doc)}
    {pre t suf : List Char} (hpre : ∀ c ∈ pre, c ≠ '{' ∧ c ≠ '[')
    (ht : Denotes (.value (.object ms)) t) (hfits : docFits (.object ms) = true) :
    (Found (lstrip pre) t (rstrip suf) →
      parseJsonResponse stage allowArray (pre ++ (t ++ suf)) = .ok (.object ms)) ∧
    (parseJsonResponse stage allowArray (pre ++ (t ++ suf)) = .ok (.object ms) →
      Found (lstrip pre) t (rstrip suf) ∨ (Passes (lstrip pre ++ (t ++ rstrip suf)) ∧
        CutToBrackets (lstrip pre) t (rstrip suf))) ∧
    (parseJsonResponse stage allowArray
        (pre ++ (openFence ++ (t ++ (closeFence ++ suf)))) = .ok (.object ms) ↔
      ¬ Refused (stripChars (pre ++ (openFence ++ (t ++ (closeFence ++ suf))))) ∧
      ¬ Refused (stripCodeFence (pre ++ (openFence ++ (t ++ (closeFence ++ suf)))))) := by
  have hround := (around_strip (x := suf) ht hfits hpre).tryParseJson_found stage allowArray
  rw [← parseJsonResponse_eq ht hfits hpre] at hround
  refine ⟨hround.1, hround.2, ?_⟩
  have hpre' : ∀ c ∈ pre ++ openFence, c ≠ '{' ∧ c ≠ '[' := by
    intro c hc
    rcases List.mem_append.mp hc with hc | hc
    · exact hpre c hc
    · exact prose_of_all (p := openFence) rfl c hc
  have ha := around_strip (x := closeFence ++ suf) ht hfits hpre'
  have hl : lstrip (pre ++ openFence) = lstrip pre ++ openFence :=
    lstrip_append (by decide) pre _
  have hr : rstrip (closeFence ++ suf) = closeFence ++ rstrip suf := by
    have := rstrip_append (c := '`') (by decide) ['\n', '`', '`'] suf
    simpa [closeFence] using this
  have hstrip : stripChars (pre ++ (openFence ++ (t ++ (closeFence ++ suf)))) =
      (lstrip pre ++ openFence) ++ (t ++ (closeFence ++ rstrip suf)) := by
    rw [← List.append_assoc, stripChars_around ht, hl, hr]
  rw [hl, hr] at ha
  rw [← stripCodeFence_stripChars (by rw [hstrip]; exact ha.stripped), hstrip,
    ← found_fence_iff ha stage allowArray, ← hl, ← hr, ← parseJsonResponse_eq ht hfits hpre',
    List.append_assoc]

/-- The text `{"a": 1}`. -/
def sampleText : List Char := ['{', '"', 'a', '"', ':', ' ', '1', '}']

/-- What it denotes. -/
def sampleMembers : List (List Nat × Doc) := [([97], .number ['1'])]

theorem sampleText_denotes : Denotes (.value (.object sampleMembers)) sampleText := by
  have hblank : Blank [] := fun _ hc => absurd hc List.not_mem_nil
  have hspace : Blank [' '] := by
    intro c hc
    cases List.mem_singleton.mp hc
    rfl
  have hkey : Chars [97] ['a'] := .plain 'a' (by decide) (by decide) (by decide) .nil
  exact .object _ _ (.lastMember _ _ [] _ [] [' '] ['1'] [] hblank hkey hblank hspace
    (.number _ rfl) hblank)

/-- The scan stops at the last brace of the object, and is not led astray by one that follows. -/
theorem sampleText_scanned :
    balancedScan '{' '}' (sampleText ++ ['}', '"']) = some sampleText ∧
    firstJsonValue ("Result: ".toList ++ (sampleText ++ ['}', '"'])) = some sampleText :=
  have hscan := scan_exact sampleText_denotes rfl
  ⟨hscan.1 ['}', '"'], hscan.2 _ ['}', '"'] (prose_of_all rfl)⟩

/-- The object is found after prose, and in a JSON fence. -/
theorem sampleText_extracted :
    parseJsonResponse "triage" true ("Result: ".toList ++ (sampleText ++ " done.".toList)) =
      .ok (.object sampleMembers) ∧
    parseJsonResponse "triage" true ("Result:\n".toList ++
      (openFence ++ (sampleText ++ (closeFence ++ " done.".toList)))) =
      .ok (.object sampleMembers) := by
  have hpre : ∀ c ∈ "Result: ".toList, c ≠ '{' ∧ c ≠ '[' := prose_of_all rfl
  have hpre' : ∀ c ∈ "Result:\n".toList, c ≠ '{' ∧ c ≠ '[' := prose_of_all rfl
  refine ⟨(extracted "triage" true hpre sampleText_denotes rfl).1 ⟨?_, .inr (.inl ?_)⟩,
    (extracted "triage" true hpre' sampleText_denotes rfl).2.2.mpr ⟨?_, ?_⟩⟩
  · exact passes_of_decode rfl
  · rintro ⟨i, j, hi, -⟩
    cases (show some i = none from hi.symm.trans rfl)
  · exact (passes_of_decode rfl).1
  · rintro ⟨msg, h⟩
    cases h

/-- A command in backticks before the object hides it. -/
theorem inline_code_hides_object :
    ¬ ∀ (stage : String) (allowArray : Bool) (ms : List (List Nat × Doc))
      (pre t suf : List Char), (∀ c ∈ pre, c ≠ '{' ∧ c ≠ '[') →
      Denotes (.value (.object ms)) t → docFits (.object ms) = true →
      (∀ v, loads (pre ++ (t ++ suf)) ≠ .ok v) →
      parseJsonResponse stage allowArray (pre ++ (t ++ suf)) = .ok (.object ms) := by
  intro hall
  have hpre : ∀ c ∈ "Run ```kubectl get pods``` first. ".toList, c ≠ '{' ∧ c ≠ '[' :=
    prose_of_all rfl
  have hloads : loads ("Run ```kubectl get pods``` first. ".toList ++ (sampleText ++ [])) =
      .error .decode := rfl
  have hparse : (parseJsonResponse "triage" true
      ("Run ```kubectl get pods``` first. ".toList ++ (sampleText ++ []))).isOk = false := by
    decide +kernel
  rw [hall "triage" true sampleMembers _ _ _ hpre sampleText_denotes rfl
    fun v hv => by rw [hloads] at hv; cases hv] at hparse
  cases hparse

end Extraction
end Core
end AutoSRE
