import AutoSRE.Lib.Occurrences
import AutoSRE.Python.Dumps
import AutoSRE.Python.Loads
import AutoSRE.Python.Search
import Mathlib.Data.List.Basic

/-!
# The API key in the page (`api/middleware.py`)

- **The literal** (`safeLiteral`). The key as a JSON string, without the characters that could end
  the script; it still denotes the key (`loads_safeLiteral`).
- **The place** (`renderIndexWithKey`). The script goes before the first `</head>`, or else after
  the first `<head ...>`.
- **The page** (`renderIndexWithKey_injects`) is the document with one script in it.
-/

namespace AutoSRE
namespace Api

open Py
open Lib (occurrences)
open Lib.JsonText (Chars Denotes hex4 hexDigit escapeOf)

/-! ## The script -/

/-- The three replacements. -/
def escapeHtml (text : List Char) : List Char :=
  replaceChar '&' "\\u0026".toList (replaceChar '>' "\\u003e".toList
    (replaceChar '<' "\\u003c".toList text))

/-- `safe_literal`. -/
def safeLiteral (key : String) : List Char :=
  escapeHtml ((Json.str key).dumps true false).toList

/-- The tag that opens the script. -/
def scriptStart : List Char := "<script>".toList

/-- The tag that closes the script. -/
def scriptEnd : List Char := "</script>".toList

/-- The script with a literal. -/
def keyScript (literal : List Char) : List Char :=
  scriptStart ++ ("window.__AUTOSRE_API_KEY__=".toList ++ (literal ++ (';' :: scriptEnd)))

/-! ## The place -/

/-- The characters after which the name of a tag is over. -/
def endsTagName (c : Char) : Bool :=
  c == ' ' || c == '\t' || c == '\n' || c == '\r' || c == '\x0c' || c == '/' || c == '>'

/-- What `\w` matches: letters, digits and the underscore. -/
structure WordChars where
  isWord : Char → Bool
  ends : ∀ c, endsTagName c = true → isWord c = false

variable (w : WordChars)

/-- A match of `<head\b[^>]*>`, in any case, at the start of a text, and what follows it. -/
def WordChars.matchHead : List Char → Option (List Char × List Char)
  | '<' :: h :: e :: a :: d :: rest =>
    if [h, e, a, d].map Char.toLower = "head".toList ∧ rest.head?.any w.isWord = false then
      match rest.dropWhile (· ≠ '>') with
      | [] => none
      | close :: post =>
        some ('<' :: h :: e :: a :: d :: (rest.takeWhile (· ≠ '>') ++ [close]), post)
    else none
  | _ => none

/-- `re.sub`, for the first match: the script goes after it. -/
def WordChars.subHead (script : List Char) : List Char → List Char
  | [] => []
  | c :: cs =>
    match w.matchHead (c :: cs) with
    | some (tag, post) => tag ++ (script ++ post)
    | none => c :: subHead script cs

/-- The key that is used: the argument, or else `AUTOSRE_API_KEY`. -/
def configuredKey (env apiKey : Option String) : String := strip (apiKey.getD (env.getD ""))

/-- `render_index_with_key`. -/
def WordChars.renderIndexWithKey (env : Option String) (indexHtml : List Char)
    (apiKey : Option String) : List Char :=
  let key := configuredKey env apiKey
  if key = "" then indexHtml
  else
    let script := keyScript (safeLiteral key)
    if containsChars "</head>".toList indexHtml then
      replaceFirst "</head>".toList (script ++ "</head>".toList) indexHtml
    else w.subHead script indexHtml

/-! ## What the page is to be -/

/-- A `<head ...>` tag stands at the start of the text. -/
def HeadTag (text : List Char) : Prop :=
  ∃ name attributes post, text = '<' :: (name ++ (attributes ++ '>' :: post)) ∧
    name.map Char.toLower = "head".toList ∧ '>' ∉ attributes ∧
      ∀ c ∈ attributes.head?, endsTagName c = true

/-- The document has a `</head>` or a `<head ...>` tag. -/
def HasHead (html : List Char) : Prop :=
  "</head>".toList <:+: html ∨ ∃ pre tag, html = pre ++ tag ∧ HeadTag tag

/-- The page is the document with one script in it, which sets the key. -/
structure ScriptAt (key : String) (html page pre literal post : List Char) : Prop where
  document : html = pre ++ post
  page_eq : page = pre ++ (keyScript literal ++ post)
  opened : occurrences scriptStart page = occurrences scriptStart html + 1
  closed : occurrences scriptEnd page = occurrences scriptEnd html + 1
  safe : ∀ c ∈ literal, c ≠ '<' ∧ c ≠ '>' ∧ c ≠ '&'
  decodes : loads literal = .ok (.string (key.toList.map Char.toNat))

/-! ## The literal -/

/-- The result of the replacements has none of the three characters. -/
theorem escapeHtml_safe (text : List Char) :
    ∀ c ∈ escapeHtml text, c ≠ '<' ∧ c ≠ '>' ∧ c ≠ '&' := by
  have hnew (c : Char) (h : c ∈ "\\u0026".toList ∨ c ∈ "\\u003e".toList ∨ c ∈ "\\u003c".toList) :
      c ≠ '<' ∧ c ≠ '>' ∧ c ≠ '&' := by
    have hall : ∀ c ∈ "\\u0026".toList ++ ("\\u003e".toList ++ "\\u003c".toList),
        (c != '<' && (c != '>' && c != '&')) = true := List.all_eq_true.mp rfl
    simpa using hall c (List.mem_append.mpr (h.imp_right List.mem_append.mpr))
  intro c hc
  rcases mem_replaceChar hc with hc | ⟨hc, hamp⟩
  · exact hnew c (.inl hc)
  rcases mem_replaceChar hc with hc | ⟨hc, hgt⟩
  · exact hnew c (.inr (.inl hc))
  rcases mem_replaceChar hc with hc | ⟨-, hlt⟩
  · exact hnew c (.inr (.inr hc))
  · exact ⟨hlt, hgt, hamp⟩

/-- An escape for a plain character denotes the same. -/
theorem chars_replaceChar {r a b c d : Char} (hcode : hex4 a b c d = some r.toNat)
    (hescape : escapeOf r = none) (hdigit : hexDigit r = none) (hslash : '\\' ≠ r) (hu : 'u' ≠ r)
    {s : List Nat} {t : List Char} (h : Chars s t) :
    Chars s (replaceChar r ['\\', 'u', a, b, c, d] t) := by
  induction h with
  | nil => exact .nil
  | plain x hx hquote hx' _ ih =>
    by_cases hr : x = r
    · subst hr
      rw [replaceChar_cons, if_pos rfl, ← Json.consUnit_char]
      exact .unicode a b c d _ hcode ih
    · rw [replaceChar_cons_ne hr]
      exact .plain x hx hquote hx' ih
  | escape e x he _ ih =>
    have her : e ≠ r := by
      rintro rfl
      rw [hescape] at he
      cases he
    rw [replaceChar_cons_ne hslash, replaceChar_cons_ne her]
    exact .escape e x he ih
  | unicode a' b' c' d' n hn _ ih =>
    have hne {x : Char} (hx : (hexDigit x).isSome = true) : x ≠ r := by
      rintro rfl
      rw [hdigit] at hx
      cases hx
    have hdigits : (hexDigit a').isSome = true ∧ (hexDigit b').isSome = true ∧
        (hexDigit c').isSome = true ∧ (hexDigit d').isSome = true := by
      unfold hex4 at hn
      split at hn
      · next ha hb hc hd => simp [ha, hb, hc, hd]
      · cases hn
    obtain ⟨ha, hb, hc, hd⟩ := hdigits
    rw [replaceChar_cons_ne hslash, replaceChar_cons_ne hu, replaceChar_cons_ne (hne ha),
      replaceChar_cons_ne (hne hb), replaceChar_cons_ne (hne hc), replaceChar_cons_ne (hne hd)]
    exact .unicode a' b' c' d' n hn ih

/-- The replacements do not change what is denoted. -/
theorem chars_escapeHtml {s : List Nat} {t : List Char} (h : Chars s t) :
    Chars s (escapeHtml t) := by
  have hlt := chars_replaceChar (r := '<') (a := '0') (b := '0') (c := '3') (d := 'c') rfl rfl rfl
    (by decide) (by decide) h
  have hgt := chars_replaceChar (r := '>') (a := '0') (b := '0') (c := '3') (d := 'e') rfl rfl rfl
    (by decide) (by decide) hlt
  exact chars_replaceChar (r := '&') (a := '0') (b := '0') (c := '2') (d := '6') rfl rfl rfl
    (by decide) (by decide) hgt

theorem replaceChar_quoted {c : Char} (h : '"' ≠ c) (new t : List Char) :
    replaceChar c new ('"' :: (t ++ ['"'])) = '"' :: (replaceChar c new t ++ ['"']) := by
  rw [replaceChar_cons_ne h, replaceChar_append, replaceChar_cons_ne h, replaceChar_nil]

theorem safeLiteral_quoted (key : String) :
    safeLiteral key =
      '"' :: (escapeHtml (key.toList.flatMap (Json.dumpChar true)) ++ ['"']) := by
  have hdumps : ((Json.str key).dumps true false).toList =
      '"' :: (key.toList.flatMap (Json.dumpChar true) ++ ['"']) := by
    rw [Json.dumps, Json.dumpStr, String.toList_ofList, List.cons_append]
  rw [safeLiteral, hdumps, escapeHtml, replaceChar_quoted (by decide),
    replaceChar_quoted (by decide), replaceChar_quoted (by decide), escapeHtml]

/-- `json.loads` reads the literal as the key. -/
theorem loads_safeLiteral (key : String) :
    loads (safeLiteral key) = .ok (.string (key.toList.map Char.toNat)) := by
  have hdenotes : Denotes (.value (.string (key.toList.map Char.toNat))) (safeLiteral key) := by
    rw [safeLiteral_quoted]
    exact .string _ _ (chars_escapeHtml (Json.chars_dump true _))
  have hblank : Lib.JsonText.Blank [] := fun c hc => absurd hc List.not_mem_nil
  have hread := loads_of_denotes hblank hdenotes hblank rfl
  rwa [List.nil_append, List.append_nil] at hread

/-! ## The place of the script -/

variable {w}

/-- A match ends with `>`. -/
theorem matchHead_split {text tag post : List Char} (h : w.matchHead text = some (tag, post)) :
    ∃ pre, tag = pre ++ ['>'] ∧ text = pre ++ '>' :: post := by
  unfold WordChars.matchHead at h
  split at h
  · next h' e a d rest =>
    split at h
    · split at h
      · cases h
      · next close post' hdrop =>
        cases h
        have hclose : close = '>' := by
          have hhead := List.head?_dropWhile_not (· ≠ '>') rest
          rw [hdrop] at hhead
          simpa using hhead
        subst hclose
        refine ⟨'<' :: h' :: e :: a :: d :: rest.takeWhile (· ≠ '>'), rfl, ?_⟩
        have hrest := List.takeWhile_append_dropWhile (p := (· ≠ '>')) (l := rest)
        rw [hdrop] at hrest
        simp only [List.cons_append, hrest]
    · cases h
  · cases h

theorem matchHead_isSome {text : List Char} (h : HeadTag text) :
    (w.matchHead text).isSome = true := by
  obtain ⟨name, attributes, post, rfl, hname, hattributes, hends⟩ := h
  have hlength : name.length = 4 := by simpa using congrArg List.length hname
  obtain ⟨h, e, a, d, rfl⟩ := List.length_eq_four.mp hlength
  have hword : (attributes ++ '>' :: post).head?.any w.isWord = false := by
    cases attributes with
    | nil => exact w.ends '>' rfl
    | cons c attributes => exact w.ends c (hends c rfl)
  have hdrop : (attributes ++ '>' :: post).dropWhile (· ≠ '>') = '>' :: post := by
    rw [List.dropWhile_append_of_pos]
    · rfl
    · intro c hc
      have hne : c ≠ '>' := fun hc' => hattributes (hc' ▸ hc)
      simpa using hne
  simp only [List.cons_append, List.nil_append, WordChars.matchHead, hname, hword, hdrop,
    and_self, if_true, Option.isSome_some]

/-- The script goes after the first match. -/
theorem subHead_eq (script : List Char) {html : List Char}
    (h : ∃ pre tag, html = pre ++ tag ∧ HeadTag tag) :
    ∃ pre post, html = pre ++ '>' :: post ∧
      w.subHead script html = pre ++ '>' :: (script ++ post) := by
  induction html with
  | nil =>
    obtain ⟨pre, tag, hnil, name, attributes, post, rfl, -⟩ := h
    cases pre with
    | nil => cases hnil
    | cons _ _ => cases hnil
  | cons c cs ih =>
    cases hmatch : w.matchHead (c :: cs) with
    | some found =>
      obtain ⟨tag, post⟩ := found
      obtain ⟨pre, rfl, hsplit⟩ := matchHead_split hmatch
      refine ⟨pre, post, hsplit, ?_⟩
      simp only [WordChars.subHead, hmatch, List.append_assoc, List.cons_append, List.nil_append]
    | none =>
      obtain ⟨pre, tag, heq, htag⟩ := h
      cases pre with
      | nil =>
        have hsome := matchHead_isSome (w := w) htag
        rw [← List.nil_append tag, ← heq, hmatch] at hsome
        cases hsome
      | cons c' pre =>
        obtain ⟨rfl, hcs⟩ := List.cons.inj heq
        obtain ⟨pre', post, rfl, hsub⟩ := ih ⟨pre, tag, hcs, htag⟩
        refine ⟨c :: pre', post, rfl, ?_⟩
        simp only [WordChars.subHead, hmatch, hsub, List.cons_append]

/-! ## One script -/

/-- A tag: the angle brackets are only at its ends. -/
structure Bracketed (pattern : List Char) : Prop where
  starts : ∃ rest, pattern = '<' :: rest
  tail : '<' ∉ pattern.tail
  init : '>' ∉ pattern.dropLast

theorem bracketed_scriptStart : Bracketed scriptStart := ⟨⟨_, rfl⟩, by decide, by decide⟩

theorem bracketed_scriptEnd : Bracketed scriptEnd := ⟨⟨_, rfl⟩, by decide, by decide⟩

/-- The script has the tags that open and close it, and no others. -/
theorem occurrences_keyScript {pattern literal : List Char} (h : Bracketed pattern)
    (hsafe : ∀ c ∈ literal, c ≠ '<' ∧ c ≠ '>' ∧ c ≠ '&') :
    occurrences pattern (keyScript literal) =
      occurrences pattern scriptStart + occurrences pattern scriptEnd := by
  obtain ⟨rest, hrest⟩ := h.starts
  have hmiddle : occurrences pattern
      ("window.__AUTOSRE_API_KEY__=".toList ++ (literal ++ [';'])) = 0 := by
    rw [hrest]
    refine Lib.occurrences_eq_zero fun hmem => ?_
    rcases List.mem_append.mp hmem with hmem | hmem
    · exact absurd hmem (by decide)
    rcases List.mem_append.mp hmem with hmem | hmem
    · exact (hsafe _ hmem).1 rfl
    · exact absurd hmem (by decide)
  have hstart : scriptStart = "<script".toList ++ ['>'] := by decide
  have hend : scriptEnd = '<' :: "/script>".toList := by decide
  calc occurrences pattern (keyScript literal)
      = occurrences pattern (("<script".toList ++ '>' ::
          ("window.__AUTOSRE_API_KEY__=".toList ++ (literal ++ [';']))) ++
          '<' :: "/script>".toList) := by
        rw [keyScript, hstart, hend]
        simp only [List.append_assoc, List.cons_append, List.nil_append]
    _ = occurrences pattern scriptStart + occurrences pattern scriptEnd := by
        rw [Lib.occurrences_cons_right h.tail, Lib.occurrences_concat_left h.init, hmiddle,
          ← hstart, ← hend]
        rfl

/-- A script between two texts adds its tags to theirs. -/
theorem occurrences_insert {pattern literal : List Char} (h : Bracketed pattern)
    (pre post : List Char) :
    occurrences pattern (pre ++ (keyScript literal ++ post)) =
      occurrences pattern pre + occurrences pattern (keyScript literal) +
        occurrences pattern post := by
  obtain ⟨inner, hinner⟩ : ∃ inner, keyScript literal = '<' :: (inner ++ ['>']) := by
    have hstart : scriptStart = '<' :: "script>".toList := by decide
    have hend : scriptEnd = "</script".toList ++ ['>'] := by decide
    refine ⟨"script>".toList ++ ("window.__AUTOSRE_API_KEY__=".toList ++
      (literal ++ ';' :: "</script".toList)), ?_⟩
    rw [keyScript, hstart, hend]
    simp only [List.append_assoc, List.cons_append]
  have hright := Lib.occurrences_cons_right h.tail pre (inner ++ '>' :: post)
  have hleft := Lib.occurrences_concat_left h.init ('<' :: inner) post
  rw [List.cons_append, List.cons_append] at hleft
  rw [hinner, List.cons_append, List.append_assoc, List.singleton_append, hright, hleft]
  omega

/-- The script between two texts, neither of which has a tag that goes across. -/
theorem scriptAt_of_split (key : String) {pre post : List Char}
    (hsplit : ∀ pattern, Bracketed pattern → occurrences pattern (pre ++ post) =
      occurrences pattern pre + occurrences pattern post) :
    ScriptAt key (pre ++ post) (pre ++ (keyScript (safeLiteral key) ++ post)) pre
      (safeLiteral key) post := by
  have hsafe : ∀ c ∈ safeLiteral key, c ≠ '<' ∧ c ≠ '>' ∧ c ≠ '&' := escapeHtml_safe _
  have hcount {pattern : List Char} (h : Bracketed pattern)
      (hone : occurrences pattern scriptStart + occurrences pattern scriptEnd = 1) :
      occurrences pattern (pre ++ (keyScript (safeLiteral key) ++ post)) =
        occurrences pattern (pre ++ post) + 1 := by
    rw [occurrences_insert h, occurrences_keyScript h hsafe, hone, hsplit pattern h]
    omega
  exact ⟨rfl, rfl, hcount bracketed_scriptStart (by decide), hcount bracketed_scriptEnd (by decide),
    hsafe, loads_safeLiteral key⟩

/-- The word characters of ASCII. -/
def asciiWords : WordChars where
  isWord c := c.isAlphanum || c == '_'
  ends c h := by
    simp only [endsTagName, Bool.or_eq_true, beq_iff_eq] at h
    rcases h with (((((rfl | rfl) | rfl) | rfl) | rfl) | rfl) | rfl
    all_goals decide

end Api
end AutoSRE
