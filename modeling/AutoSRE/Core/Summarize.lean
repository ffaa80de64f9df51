import AutoSRE.Core.Extraction
import AutoSRE.Python.Pattern

/-!
# The summaries of tool results (`core/context.py`)

- **JSON** (`summarizeJson`). The known keys of a document, its numbers, and the size and the keys
  of its list.
- **Text** (`summarizeText`). The lines with errors and warnings, the metrics, the names of
  resources, and the first and the last lines. The expression for a percentage has one group, and
  the loop reads two: a text with a percentage before a word character has no summary
  (`summarizeText_isOk_iff`).
-/

namespace AutoSRE
namespace Core
namespace ContextEviction

open Py
open Lib (Regex)
open Lib.JsonText (Doc codePoints)

/-! ## `str` of a document -/

/-- The character of a code point; the replacement character stands for a lone surrogate. -/
def pointChar (n : Nat) : Char := if n.isValidChar then Char.ofNat n else Char.ofNat 0xfffd

def pointChars (points : List Nat) : List Char := points.map pointChar

/-- `d[key] = value`. -/
def setMember {α : Type} (key : List Nat) (value : α) : List (List Nat × α) → List (List Nat × α)
  | [] => [(key, value)]
  | (k, v) :: d => if k = key then (k, value) :: d else (k, v) :: setMember key value d

/-- The `dict` of the members of an object: a key that comes again keeps its place, and gets the
last value. -/
def dictOf {α : Type} (members : List (List Nat × α)) : List (List Nat × α) :=
  members.foldl (fun d m => setMember m.1 m.2 d) []

/-- `str` of the number of a literal. -/
def numberStr (literal : List Char) : List Char :=
  if literal.all fun c => c.isDigit || c == '-' then
    if literal = ['-', '0'] then ['0'] else literal
  else
    match floatOfText (String.ofList literal) with
    | some (.finite q) =>
      if q = 0 ∧ literal.head? = some '-' then "-0.0".toList else (PyFloat.finite q).repr.toList
    | some x => x.repr.toList
    | none => literal

/-- One code point of `repr(text)`, between quotes `q`. -/
def reprPoint (q : Char) (n : Nat) : List Char :=
  if n.isValidChar then reprChar q (Char.ofNat n) else Json.escapeUnit n

/-- `repr(text)`. -/
def reprPoints (points : List Nat) : List Char :=
  let q := if '\''.toNat ∈ points ∧ '\"'.toNat ∉ points then '\"' else '\''
  q :: points.flatMap (reprPoint q) ++ [q]

/-- `separator.join(texts)`. -/
def join (separator : String) (texts : List (List Char)) : List Char :=
  separator.toList.intercalate texts

mutual
/-- `repr(v)`. -/
def reprDoc : Doc → List Char
  | .null => "None".toList
  | .bool b => (if b then "True" else "False").toList
  | .number literal => numberStr literal
  | .string s => reprPoints s
  | .array items => '[' :: join ", " (reprItems items) ++ [']']
  | .object members =>
    let items := (dictOf (reprMembers members)).map fun m => reprPoints m.1 ++ (':' :: ' ' :: m.2)
    '{' :: join ", " items ++ ['}']
/-- `repr` of the items of a list. -/
def reprItems : List Doc → List (List Char)
  | [] => []
  | v :: vs => reprDoc v :: reprItems vs
/-- `repr` of the values of a `dict`. -/
def reprMembers : List (List Nat × Doc) → List (List Nat × List Char)
  | [] => []
  | (k, v) :: ms => (k, reprDoc v) :: reprMembers ms
end

/-- `str(v)`. -/
def strDoc : Doc → List Char
  | .string s => pointChars s
  | v => reprDoc v

/-! ## JSON -/

/-- `_KNOWN_JSON_KEYS`. -/
def knownJsonKeys : List String :=
  ["error", "errors", "message", "reason", "status", "phase", "pod", "deployment", "service",
    "namespace", "name", "count", "total"]

/-- `key.title()`, of a word in lower case. -/
def title (key : String) : List Char :=
  match key.toList with
  | [] => []
  | c :: cs => c.toUpper :: cs

/-- The part of `error` and `errors`. -/
def errorsPart (value : Doc) : List Char :=
  let values :=
    match value with
    | .array items => items
    | v => [v]
  let rendered := join "; " ((values.take 4).map fun item => (stripChars (strDoc item)).take 180)
  ("Errors(" ++ toString values.length ++ "): ").toList ++ rendered

/-- The value is a `str`, an `int`, a `float` or a `bool`. -/
def isScalar : Doc → Bool
  | .string _ | .number _ | .bool _ => true
  | _ => false

/-- The part of a known key. -/
def knownPart (d : List (List Nat × Doc)) (key : String) : Option (List Char) :=
  match d.lookup (codePoints key) with
  | none => none
  | some value =>
    if key = "error" ∨ key = "errors" then some (errorsPart value)
    else if isScalar value then some (title key ++ (':' :: ' ' :: strDoc value))
    else none

/-- The numbers of a `dict`. -/
def numericParts (d : List (List Nat × Doc)) : List (List Char) :=
  d.filterMap fun m =>
    match m.2 with
    | .number literal => some (pointChars m.1 ++ '=' :: numberStr literal)
    | _ => none

/-- The first keys of a `dict`. -/
def keysOf {α : Type} (d : List (List Nat × α)) (n : Nat) : List Char :=
  join ", " ((d.take n).map fun m => pointChars m.1)

/-- The keys of the first item of a list. -/
def itemKeys : List Doc → List (List Char)
  | .object members :: _ => ["Keys: ".toList ++ keysOf (dictOf members) 8]
  | _ => []

/-- The list of the first of the keys that has one. -/
def listParts (d : List (List Nat × Doc)) : List String → List (List Char)
  | [] => []
  | key :: keys =>
    match d.lookup (codePoints key) with
    | some (.array items) =>
      (title key ++ (": " ++ toString items.length ++ " items").toList) :: itemKeys items
    | _ => listParts d keys

/-- The parts of a `dict`. -/
def dictParts (d : List (List Nat × Doc)) : List (List Char) :=
  let known := knownJsonKeys.filterMap (knownPart d)
  let numeric := numericParts d
  let metrics :=
    if numeric.isEmpty then [] else ["Metrics: ".toList ++ join ", " (numeric.take 8)]
  let parts := known ++ metrics ++ listParts d ["items", "data", "results"]
  if parts.isEmpty then ["Top-level keys: ".toList ++ keysOf d 12] else parts

/-- `[{tool_name}]`, before the rest of the first part. -/
def toolHead (toolName rest : String) : List Char := ("[" ++ toolName ++ "] " ++ rest).toList

/-- `_summarize_json`. -/
def summarizeJson (toolName : String) (data : Doc) : List Char :=
  let parts :=
    match data with
    | .object members => dictParts (dictOf members)
    | .array items =>
      ("List: " ++ toString items.length ++ " items").toList :: itemKeys items
    | v => [("Data type: " ++ Extraction.typeName v).toList]
  join " | " (toolHead toolName "JSON summary" :: parts)

/-! ## Text -/

/-- The characters at which `str.splitlines` splits. -/
def isLineBreak (c : Char) : Bool :=
  let n := c.toNat
  (10 ≤ n && n ≤ 13) || (28 ≤ n && n ≤ 30) || n == 0x85 || n == 0x2028 || n == 0x2029

/-- `str.splitlines`; `line` has the characters of the line so far, the last one first. -/
def splitLines (line : List Char) : List Char → List (List Char)
  | [] => if line.isEmpty then [] else [line.reverse]
  | '\r' :: '\n' :: cs => line.reverse :: splitLines [] cs
  | c :: cs =>
    if isLineBreak c then line.reverse :: splitLines [] cs else splitLines (c :: line) cs

/-- The lines of a text that are not blank, stripped. -/
def nonEmptyLines (content : List Char) : List (List Char) :=
  ((splitLines [] content).map stripChars).filter (!·.isEmpty)

/-- `_dedupe`, with the result so far. -/
def dedupeFrom (result : List (List Char)) : List (List Char) → List (List Char)
  | [] => result
  | value :: values =>
    let text := stripChars value
    if text.isEmpty ∨ text ∈ result then dedupeFrom result values
    else dedupeFrom (result ++ [text]) values

/-- `_dedupe`. -/
def dedupe (values : List (List Char)) : List (List Char) := dedupeFrom [] values

/-- `_ERROR_RE`. -/
def errorRe : Regex :=
  .alts [phrase "error", plural "faile" "d", phrase "failure", phrase "exception",
    phrase "traceback", phrase "fatal", phrase "panic", phrase "denied",
    .seq (plural "time" "d") (phrase " out")]

/-- `_WARNING_RE`. -/
def warningRe : Regex := plural "warn" "ing"

/-- The lines that the expression finds something in. -/
def linesWith (r : Regex) (lines : List (List Char)) : List (List Char) :=
  dedupe (lines.filter fun line => (r.search line).isSome)

section text

variable (w : WordTable)

/-- The first group of the metrics: a number. -/
def numberRe : Regex :=
  .group 1 (.seq (.plus isDecimal) (.opt (.seq (phrase ".") (.plus isDecimal))))

/-- A number with a unit, which is the second group. -/
def unitRe (unit : Regex) : Regex :=
  .seqs [.boundary w.isWord, numberRe, .star isSpace, .group 2 unit, .boundary w.isWord]

/-- The third of the metrics. -/
def percentRe : Regex :=
  .seqs [.boundary w.isWord, numberRe, phrase "%", .boundary w.isWord]

/-- `_METRIC_PATTERNS`. -/
def metricPatterns : List (Regex × String) :=
  [(unitRe w (.alts [phrase "ms", plural "millisecond" "s"]), "duration"),
    (unitRe w (.alts [phrase "s", plural "second" "s"]), "duration"),
    (percentRe w, "percentage"),
    (unitRe w (.alts [phrase "kb", phrase "mb", phrase "gb", plural "byte" "s"]), "memory"),
    (unitRe w (.alts [plural "request" "s", plural "req" "s", phrase "rps"]), "requests")]

/-- `match.group(i)`. -/
def matchGroup (r : Regex) (s : Regex.Cursor) (i : Nat) : Except PyExc (List Char) :=
  if r.hasGroup i then .ok ((s.group? i).getD "None".toList)
  else .error (.exception "IndexError" "no such group")

/-- The loop over the metrics. -/
def metricsOf (content : List Char) : List (Regex × String) → Except PyExc (List (List Char))
  | [] => .ok []
  | (r, label) :: patterns =>
    match r.search content with
    | none => metricsOf content patterns
    | some s => do
      let value ← matchGroup r s 1
      let unit ← matchGroup r s 2
      let metrics ← metricsOf content patterns
      pure ((label.toList ++ '=' :: value ++ ' ' :: unit) :: metrics)

/-- `_KEY_PATTERNS`. -/
def keyPatterns : List String :=
  ["OOMKilled", "CrashLoopBackOff", "ImagePullBackOff", "Evicted", "Timeout"]

/-- `[=/ :]`. -/
def isNameMark (c : Char) : Bool := c == '=' || c == '/' || c == ' ' || c == ':'

/-- `[A-Za-z0-9._-]`, in any case. -/
def isNameChar (c : Char) : Bool :=
  c.isAlphanum || c == '.' || c == '_' || c == '-' ||
    [0x130, 0x131, 0x17f, 0x212a].contains c.toNat

/-- The name of a resource, after its kind. -/
def resourceRe : Regex :=
  .seqs [.boundary w.isWord,
    .alts [phrase "pod", phrase "deployment", phrase "service", phrase "namespace"],
    .star isSpace, .plus isNameMark, .star isSpace, .group 1 (.plus isNameChar)]

/-- A part for the texts, if there are any. -/
def listed (label separator : String) (texts : List (List Char)) : List (List Char) :=
  if texts.isEmpty then [] else [label.toList ++ join separator texts]

/-- `_summarize_text`. -/
def summarizeText (toolName : String) (content : List Char) : Except PyExc (List Char) :=
  let lines := nonEmptyLines content
  if lines.isEmpty then .ok (toolHead toolName "empty result")
  else do
    let errors := linesWith errorRe lines
    let warnings := linesWith warningRe lines
    let metrics ← metricsOf content (metricPatterns w)
    let patterns := keyPatterns.filter fun pattern => ((phrase pattern).search content).isSome
    let resources := dedupe (((resourceRe w).findAll content).map fun s => (s.group? 1).getD [])
    let head := dedupe (lines.take 2)
    let tail := dedupe (lines.drop (lines.length - 2))
    let context := dedupe (head ++ tail)
    pure (join " | " (toolHead toolName (toString lines.length ++ " non-empty lines") ::
      (listed "Errors: " " | " ((errors.take 6).map (·.take 180)) ++
        listed "Warnings: " " | " ((warnings.take 3).map (·.take 140)) ++
        listed "Metrics: " ", " (metrics.take 6) ++
        listed "Patterns: " ", " (patterns.map (·.toList)) ++
        listed "Resources: " ", " (resources.take 8) ++
        listed "Context: " " | " (context.map (·.take 140)))))

/-! ## Texts without a summary -/

/-- The text has a number, after no word character, with a percent sign and a word character after
it. -/
def Percented (content : List Char) : Prop :=
  ∃ a d b, content = a ++ (d ++ '%' :: b) ∧ d ≠ [] ∧ (∀ c ∈ d, isDecimal c = true) ∧
    a.getLast?.any w.isWord = false ∧ b.head?.any w.isWord = true

variable {w}

theorem way_percentSign_iff {s s' : Regex.Cursor} :
    Regex.Way (phrase "%") s s' ↔ ∃ rest, s.rest = '%' :: rest ∧ s' = s.over ['%'] rest :=
  way_symbol_iff (show '%'.toNat < 65 by decide)

/-- A number: digits, and others after a dot. -/
theorem way_numberRe_iff {s s' : Regex.Cursor} :
    Regex.Way numberRe s s' ↔ ∃ d rest, d ≠ [] ∧ (∀ c ∈ d, isDecimal c = true) ∧
      ((s.rest = d ++ rest ∧ s' = (s.over d rest).close 1 s) ∨
        ∃ e, e ≠ [] ∧ (∀ c ∈ e, isDecimal c = true) ∧ s.rest = e ++ '.' :: (d ++ rest) ∧
          s' = (s.over (e ++ '.' :: d) rest).close 1 s) := by
  have hdot : ∀ {s s' : Regex.Cursor}, Regex.Way (phrase ".") s s' ↔
      ∃ rest, s.rest = '.' :: rest ∧ s' = s.over ['.'] rest :=
    way_symbol_iff (show '.'.toNat < 65 by decide)
  simp only [numberRe, Regex.way_group_iff, Regex.way_seq_iff, Regex.way_opt_iff,
    Regex.way_plus_iff, hdot]
  constructor
  · rintro ⟨s₁, ⟨s₂, ⟨e, t, hrest, hne, he, rfl⟩, hfraction⟩, rfl⟩
    rcases hfraction with ⟨s₃, ⟨t', ht, rfl⟩, d, rest, ht', hne', hd, rfl⟩ | rfl
    · obtain rfl : t = '.' :: t' := ht
      obtain rfl : t' = d ++ rest := ht'
      exact ⟨d, rest, hne', hd, .inr ⟨e, hne, he, hrest, by simp [Regex.Cursor.over]⟩⟩
    · exact ⟨e, t, hne, he, .inl ⟨hrest, rfl⟩⟩
  · rintro ⟨d, rest, hne, hd, ⟨hrest, rfl⟩ | ⟨e, hne', he, hrest, rfl⟩⟩
    · exact ⟨_, ⟨_, ⟨d, rest, hrest, hne, hd, rfl⟩, .inr rfl⟩, rfl⟩
    · exact ⟨_, ⟨_, ⟨e, _, hrest, hne', he, rfl⟩,
        .inl ⟨_, ⟨_, rfl, rfl⟩, d, rest, rfl, hne, hd, rfl⟩⟩, by simp [Regex.Cursor.over]⟩

/-- A search for a percentage finds something exactly in such a text. -/
theorem percentRe_iff {content : List Char} :
    ((percentRe w).search content).isSome = true ↔ Percented w content := by
  have hsign : w.isWord '%' = false := w.ascii '%' (by decide)
  have hdot : w.isWord '.' = false := w.ascii '.' (by decide)
  have hdigit : ∀ d : List Char, d ≠ [] → (∀ c ∈ d, isDecimal c = true) → ∀ rest,
      (d ++ rest).head?.any w.isWord = true := by
    intro d hne hd rest
    obtain ⟨c, d, rfl⟩ := List.exists_cons_of_ne_nil hne
    exact w.digit c (hd c List.mem_cons_self)
  -- Before a word character, an edge is where no word character stands before it.
  have hedge : ∀ {u v : List Char}, v.head?.any w.isWord = true →
      ((⟨u.reverse, v, []⟩ : Regex.Cursor).atBoundary w.isWord = true ↔
        u.getLast?.any w.isWord = false) := by
    intro u v hv
    simp [Regex.Cursor.atBoundary, hv, List.head?_reverse]
  rw [Regex.search_isSome_iff]
  simp only [percentRe, Regex.way_seqs_cons, Regex.way_seqs_nil, Regex.way_boundary_iff,
    way_numberRe_iff, way_percentSign_iff]
  constructor
  · rintro ⟨u, v, s', rfl, s₁, ⟨hstart, rfl⟩, s₂, ⟨d, rest, hne, hd, hnumber⟩, s₃,
      ⟨b, hrest, rfl⟩, s₄, ⟨hend, rfl⟩, rfl⟩
    have hafter : b.head?.any w.isWord = true := by
      simpa [Regex.Cursor.atBoundary, Regex.Cursor.over, hsign] using hend
    rcases hnumber with ⟨hv, rfl⟩ | ⟨e, hne', he, hv, rfl⟩
    · obtain rfl : v = d ++ rest := hv
      obtain rfl : rest = '%' :: b := hrest
      refine ⟨u, d, b, rfl, hne, hd, ?_, hafter⟩
      exact (hedge (hdigit d hne hd _)).mp hstart
    · obtain rfl : v = e ++ '.' :: (d ++ rest) := hv
      obtain rfl : rest = '%' :: b := hrest
      refine ⟨u ++ (e ++ ['.']), d, b, by simp, hne, hd, ?_, hafter⟩
      simp [hdot]
  · rintro ⟨a, d, b, rfl, hne, hd, hbefore, hafter⟩
    refine ⟨a, d ++ '%' :: b, _, rfl, _, ⟨?_, rfl⟩, _, ⟨d, '%' :: b, hne, hd, .inl ⟨rfl, rfl⟩⟩, _,
      ⟨b, rfl, rfl⟩, _, ⟨?_, rfl⟩, rfl⟩
    · exact (hedge (hdigit d hne hd _)).mpr hbefore
    · simp [Regex.Cursor.atBoundary, Regex.Cursor.over, Regex.Cursor.close, hsign, hafter]

/-- A metric with a unit is read. -/
theorem metricsOf_unit (content : List Char) (unit : Regex) (label : String)
    (patterns : List (Regex × String)) :
    (metricsOf content ((unitRe w unit, label) :: patterns)).isOk =
      (metricsOf content patterns).isOk := by
  have h₁ : (unitRe w unit).hasGroup 1 = true := rfl
  have h₂ : (unitRe w unit).hasGroup 2 = true := by
    simp [unitRe, Regex.seqs, Regex.hasGroup]
  rw [metricsOf]
  cases (unitRe w unit).search content with
  | none => rfl
  | some s =>
    simp only [matchGroup, h₁, h₂, if_true]
    cases metricsOf content patterns <;> rfl

/-- The second group of a percentage is not there. -/
theorem metricsOf_percent (content : List Char) (label : String)
    (patterns : List (Regex × String)) :
    (metricsOf content ((percentRe w, label) :: patterns)).isOk =
      (!((percentRe w).search content).isSome && (metricsOf content patterns).isOk) := by
  have h₂ : (percentRe w).hasGroup 2 = false := rfl
  rw [metricsOf]
  cases (percentRe w).search content with
  | none => rfl
  | some s =>
    simp only [matchGroup, h₂, Bool.false_eq_true, if_false]
    split <;> rfl

theorem metricsOf_isOk_iff {content : List Char} :
    (metricsOf content (metricPatterns w)).isOk = true ↔ ¬ Percented w content := by
  rw [← percentRe_iff]
  simp only [metricPatterns, metricsOf_unit, metricsOf_percent]
  simp [metricsOf, Except.isOk, Except.toBool]

theorem isSpace_of_lineBreak {c : Char} (h : isLineBreak c = true) : isSpace c = true := by
  simp only [isLineBreak, isSpace, Bool.or_eq_true, Bool.and_eq_true, decide_eq_true_eq,
    beq_iff_eq] at h ⊢
  omega

/-- A character that is not blank is in a line. -/
theorem mem_splitLines {c : Char} (hc : isSpace c = false) {line text : List Char}
    (h : c ∈ line ∨ c ∈ text) : ∃ l ∈ splitLines line text, c ∈ l := by
  have hbreak : ∀ d, isLineBreak d = true → c ≠ d := by
    rintro d hd rfl
    rw [isSpace_of_lineBreak hd] at hc
    cases hc
  fun_induction splitLines line text with
  | case1 line hline =>
    rw [List.isEmpty_iff.mp hline] at h
    simp at h
  | case2 line hline => exact ⟨_, List.mem_singleton_self _, by simpa using h⟩
  | case3 line cs ih =>
    rcases h with h | h
    · exact ⟨_, List.mem_cons_self, List.mem_reverse.mpr h⟩
    · have hcs : c ∈ cs := by simpa [hbreak '\r' (by decide), hbreak '\n' (by decide)] using h
      obtain ⟨l, hl, hcl⟩ := ih (.inr hcs)
      exact ⟨l, List.mem_cons_of_mem _ hl, hcl⟩
  | case4 line d cs _ hd ih =>
    rcases h with h | h
    · exact ⟨_, List.mem_cons_self, List.mem_reverse.mpr h⟩
    · have hcs : c ∈ cs := by simpa [hbreak d hd] using h
      obtain ⟨l, hl, hcl⟩ := ih (.inr hcs)
      exact ⟨l, List.mem_cons_of_mem _ hl, hcl⟩
  | case5 line d cs _ hd ih =>
    refine ih ?_
    rcases h with h | h
    · exact .inl (List.mem_cons_of_mem d h)
    · rcases List.mem_cons.mp h with rfl | h
      · exact .inl List.mem_cons_self
      · exact .inr h

/-- A text that is not blank has a line. -/
theorem nonEmptyLines_ne_nil {c : Char} {content : List Char} (hc : isSpace c = false)
    (h : c ∈ content) : nonEmptyLines content ≠ [] := by
  obtain ⟨l, hl, hcl⟩ : ∃ l ∈ splitLines [] content, c ∈ l := mem_splitLines hc (.inr h)
  have hdrop : ∀ {cs : List Char}, c ∈ cs → c ∈ cs.dropWhile isSpace := by
    intro cs h
    rw [← List.takeWhile_append_dropWhile (p := isSpace) (l := cs)] at h
    rcases List.mem_append.mp h with h | h
    · rw [List.mem_takeWhile_imp h] at hc
      cases hc
    · exact h
  have hstrip : c ∈ stripChars l :=
    List.mem_reverse.mpr (hdrop (List.mem_reverse.mpr (hdrop hcl)))
  have hmem : stripChars l ∈ nonEmptyLines content :=
    List.mem_filter.mpr ⟨List.mem_map_of_mem hl, by simpa using List.ne_nil_of_mem hstrip⟩
  exact List.ne_nil_of_mem hmem

/-- There is no summary of a text with such a percentage. -/
theorem summarizeText_isOk_iff {toolName : String} {content : List Char} :
    (summarizeText w toolName content).isOk = true ↔ ¬ Percented w content := by
  rw [summarizeText]
  split
  · rename_i hlines
    refine iff_of_true rfl ?_
    rintro ⟨a, d, b, rfl, -⟩
    exact nonEmptyLines_ne_nil (c := '%') (by decide) (by simp) (List.isEmpty_iff.mp hlines)
  · rw [← metricsOf_isOk_iff]
    cases metricsOf content (metricPatterns w) <;> rfl

end text

end ContextEviction
end Core
end AutoSRE
