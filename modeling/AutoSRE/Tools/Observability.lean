import AutoSRE.Lib.Tokens
import AutoSRE.Python.Search
import Mathlib.Data.List.TakeWhile

/-!
# The SQL that is sent to OpenObserve (`tools/observability.py`)

- **Statements** (`Select`). The clauses of a query in their order, each with its words and its
  body. A query is a text whose tokens are those of a statement.
- **The request** (`payload`). A FROM clause is appended if the text does not mention FROM, and a
  LIMIT clause if it does not mention LIMIT; the time range and the limit are clamped.
- **The exact condition** (`payload_right_iff`) under which the statement that is sent is the
  caller's with both clauses filled in.
-/

namespace AutoSRE
namespace Tools

open Py
open Lib (Token Lexis)

/-! ## Statements -/

/-- A character of a word, in SQL. -/
def isWordChar (c : Char) : Bool :=
  !isSpace c && (c.isAlphanum || c == '_' || 128 ≤ c.toNat)

/-- The lexis of SQL. -/
def sqlLexis : Lexis where
  blank := isSpace
  word := isWordChar
  blank_word c h := by simp [isWordChar, h]
  blank_mark c h := by
    simp only [List.mem_cons, List.not_mem_nil, or_false] at h
    rcases h with rfl | rfl | rfl | rfl
    all_goals rfl
  word_mark c h := by
    simp only [List.mem_cons, List.not_mem_nil, or_false] at h
    rcases h with rfl | rfl
    all_goals rfl

/-- A word in upper case. -/
def upperWord (w : List Char) : List Char := w.map Char.toUpper

/-- The words that start a clause. -/
def reserved : List (List Char) :=
  ["SELECT".toList, "FROM".toList, "WHERE".toList, "GROUP".toList, "HAVING".toList,
    "ORDER".toList, "LIMIT".toList, "UNION".toList]

/-- The word starts a clause. -/
def isReserved (w : List Char) : Bool := reserved.contains (upperWord w)

/-- The tokens go on inside `depth` parentheses, and end outside them, with no clause and no end of
the statement on the way. -/
def plain : Nat → List Token → Bool
  | depth, [] => depth == 0
  | depth, .symbol c :: ts =>
    if c = '(' then plain (depth + 1) ts
    else if c = ')' then depth != 0 && plain (depth - 1) ts
    else c != ';' && plain depth ts
  | depth, .word w :: ts => (depth != 0 || !isReserved w) && plain depth ts
  | depth, .quoted _ _ :: ts => plain depth ts
  | _, .unclosed :: _ => false

/-- A clause: its words, in any case, and its body. -/
structure Clause (keywords : List String) where
  words : List (List Char)
  body : List Token
  words_eq : words.map upperWord = keywords.map String.toList
  body_ne : body ≠ []
  body_plain : plain 0 body = true

/-- The tokens of a clause. -/
def Clause.tokens {keywords : List String} (c : Clause keywords) : List Token :=
  c.words.map Token.word ++ c.body

/-- The tokens of a clause that may be missing. -/
def optional {keywords : List String} (c : Option (Clause keywords)) : List Token :=
  c.elim [] Clause.tokens

/-- The clauses of a statement. -/
structure Select where
  columns : Clause ["SELECT"]
  source : Option (Clause ["FROM"])
  condition : Option (Clause ["WHERE"])
  keys : Option (Clause ["ORDER", "BY"])
  rows : Option (Clause ["LIMIT"])

/-- The tokens of a statement. -/
def Select.tokens (s : Select) : List Token :=
  s.columns.tokens ++
    (optional s.source ++ (optional s.condition ++ (optional s.keys ++ optional s.rows)))

/-- The end of a statement. -/
def terminator (semicolon : Bool) : List Token := if semicolon then [.symbol ';'] else []

/-- A query of a caller: the text of a statement, with a semicolon at its end or without. -/
structure Query where
  text : List Char
  select : Select
  semicolon : Bool
  tokens_eq : sqlLexis.tokens text = select.tokens ++ terminator semicolon

/-- An identifier. -/
def isIdentifier : Token → Bool
  | .word w => !isReserved w
  | .quoted double _ => double
  | _ => false

/-- The name of a stream; it may be empty. -/
structure Stream where
  text : List Char
  name : text = [] ∨ ∃ t, sqlLexis.tokens text = [t] ∧ isIdentifier t = true

/-! ## The request -/

/-- `DEFAULT_STREAM`. -/
def defaultStream : List Char := "app_logs".toList

/-- `effective_stream`. -/
def effectiveStream (stream : List Char) : List Char :=
  let effective := if stream.isEmpty then defaultStream else stream
  if effective = "logs".toList then defaultStream else effective

/-- `query.strip().rstrip(";")`. -/
def statement (query : List Char) : List Char :=
  ((stripChars query).reverse.dropWhile (· == ';')).reverse

/-- The statement mentions a word, in any case and anywhere. -/
def mentions (word : String) (query : List Char) : Bool :=
  containsChars word.toList (upperChars (statement query))

/-- The SQL, with the clauses that are taken to be missing. -/
def completeSql (query stream : List Char) (limit : Int) : List Char :=
  let sql := statement query
  let sql :=
    if mentions "FROM" query then sql else sql ++ " FROM ".toList ++ effectiveStream stream
  if mentions "LIMIT" query then sql else sql ++ " LIMIT ".toList ++ (toString limit).toList

/-- The `query` of the request; `offset` is its `from`. -/
structure Payload where
  sql : List Char
  startTime : Int
  endTime : Int
  offset : Nat
  size : Int

/-- What `query` sends. -/
def payload (nowUs : Int) (query stream : List Char) (timeRangeMinutes limit : Int) : Payload :=
  let timeRangeMinutes := max 1 (min 1440 timeRangeMinutes)
  let limit := max 1 (min 500 limit)
  { sql := completeSql query stream limit
    startTime := nowUs - timeRangeMinutes * 60 * 1000000
    endTime := nowUs
    offset := 0
    size := limit }

/-! ## What is to be sent -/

/-- The statement is the other one with a FROM and a LIMIT clause. -/
structure Fills (s s' : Select) : Prop where
  columns : s'.columns = s.columns
  source : s'.source.isSome = true
  source_kept : ∀ c, s.source = some c → s'.source = some c
  condition : s'.condition = s.condition
  keys : s'.keys = s.keys
  rows : s'.rows.isSome = true
  rows_kept : ∀ c, s.rows = some c → s'.rows = some c

/-- The request is right. -/
structure Right (query : Query) (sent : Payload) : Prop where
  sql : ∃ s, sqlLexis.tokens sent.sql = s.tokens ∧ Fills query.select s
  time : sent.startTime < sent.endTime
  size : 1 ≤ sent.size ∧ sent.size ≤ 500

/-- The clauses that are missing are not mentioned, and can be appended. -/
structure Completable (query : Query) : Prop where
  source : query.select.source.isSome = true ∨
    mentions "FROM" query.text = false ∧ query.select.condition = none ∧
      query.select.keys = none ∧ query.select.rows = none
  rows : query.select.rows.isSome = true ∨ mentions "LIMIT" query.text = false

/-! ## Tokens of a statement -/

/-- What no token of a statement is. -/
def Inner (t : Token) : Prop := t ≠ .symbol ';' ∧ t ≠ .unclosed

theorem inner_of_plain {depth : Nat} {ts : List Token} (h : plain depth ts = true) :
    ∀ t ∈ ts, Inner t := by
  induction ts generalizing depth with
  | nil => exact fun t ht => absurd ht List.not_mem_nil
  | cons t ts ih =>
    rw [List.forall_mem_cons]
    cases t with
    | symbol c =>
      rw [plain] at h
      split_ifs at h with hopen hclose
      · exact ⟨by simp [Inner, hopen], ih h⟩
      · exact ⟨by simp [Inner, hclose], ih (Bool.and_eq_true_iff.mp h).2⟩
      · obtain ⟨hne, h⟩ := Bool.and_eq_true_iff.mp h
        exact ⟨by simpa [Inner] using hne, ih h⟩
    | word w => exact ⟨by simp [Inner], ih (Bool.and_eq_true_iff.mp h).2⟩
    | quoted double text => exact ⟨by simp [Inner], ih h⟩
    | unclosed => cases h

theorem inner_clause {keywords : List String} (c : Clause keywords) : ∀ t ∈ c.tokens, Inner t := by
  intro t ht
  rcases List.mem_append.mp ht with ht | ht
  · obtain ⟨w, -, rfl⟩ := List.mem_map.mp ht
    simp [Inner]
  · exact inner_of_plain c.body_plain t ht

theorem inner_optional {keywords : List String} (c : Option (Clause keywords)) :
    ∀ t ∈ optional c, Inner t := by
  cases c with
  | none => exact fun t ht => absurd ht List.not_mem_nil
  | some c => exact inner_clause c

theorem inner_select (s : Select) : ∀ t ∈ s.tokens, Inner t := by
  intro t ht
  simp only [Select.tokens, List.mem_append] at ht
  rcases ht with ht | ht | ht | ht | ht
  · exact inner_clause _ t ht
  · exact inner_optional _ t ht
  · exact inner_optional _ t ht
  · exact inner_optional _ t ht
  · exact inner_optional _ t ht

/-! ## Blanks and the semicolon -/

/-- A stripped text, and the blanks around it. -/
theorem strip_split (text : List Char) :
    ∃ left right, text = left ++ (stripChars text ++ right) ∧
      (∀ c ∈ left, isSpace c = true) ∧ ∀ c ∈ right, isSpace c = true := by
  refine ⟨text.takeWhile isSpace,
    ((text.dropWhile isSpace).reverse.takeWhile isSpace).reverse, ?_,
    fun c hc => List.mem_takeWhile_imp hc,
    fun c hc => List.mem_takeWhile_imp (List.mem_reverse.mp hc)⟩
  rw [stripChars, ← List.reverse_append, List.takeWhile_append_dropWhile, List.reverse_reverse,
    List.takeWhile_append_dropWhile]

/-- A stripped text does not end with a blank. -/
theorem strip_last {text init : List Char} {c : Char} (h : stripChars text = init ++ [c]) :
    isSpace c = false := by
  have hhead := List.head?_dropWhile_not isSpace (text.dropWhile isSpace).reverse
  have hreverse : (text.dropWhile isSpace).reverse.dropWhile isSpace = c :: init.reverse := by
    rw [← List.reverse_reverse ((text.dropWhile isSpace).reverse.dropWhile isSpace), ← stripChars,
      h, List.reverse_append]
    rfl
  rw [hreverse] at hhead
  simpa using hhead

/-- The tokens of a stripped text. -/
theorem tokens_strip {text : List Char} (h : .unclosed ∉ sqlLexis.tokens text) :
    sqlLexis.Closed (stripChars text) ∧
      sqlLexis.tokens (stripChars text) = sqlLexis.tokens text := by
  obtain ⟨left, right, hsplit, hleft, hright⟩ := strip_split text
  have hskip := sqlLexis.tokens_blanks_append hleft (stripChars text ++ right)
  rw [← hsplit] at hskip
  have hclosed := sqlLexis.closed_of_tokens (hskip ▸ h)
  obtain ⟨hstrip, htokens⟩ := sqlLexis.tokens_append_blanks hright hclosed
  exact ⟨hstrip, htokens.symm.trans hskip.symm⟩

/-- A text whose last token is no semicolon does not end with one. -/
theorem rstrip_semicolon_eq {text : List Char} (hclosed : sqlLexis.Closed text)
    (h : ∀ t ∈ sqlLexis.tokens text, Inner t) :
    (text.reverse.dropWhile (· == ';')).reverse = text := by
  rcases List.eq_nil_or_concat text with rfl | ⟨init, c, rfl⟩
  · rfl
  rw [List.concat_eq_append] at *
  have hne : c ≠ ';' := by
    rintro rfl
    have hinit := sqlLexis.closed_of_concat (by decide) hclosed
    rw [sqlLexis.tokens_concat_symbol hinit rfl rfl (by decide)] at h
    exact (h _ (List.mem_append_right _ (List.mem_singleton_self _))).1 rfl
  rw [List.reverse_append, List.reverse_singleton, List.singleton_append,
    List.dropWhile_cons_of_neg (by simpa using hne), List.reverse_cons, List.reverse_reverse]

/-- The tokens of a query, without blanks and the semicolon at its ends. -/
theorem statement_tokens (query : Query) :
    sqlLexis.Closed (statement query.text) ∧
      sqlLexis.tokens (statement query.text) = query.select.tokens := by
  have hinner := inner_select query.select
  have hunclosed : .unclosed ∉ sqlLexis.tokens query.text := by
    rw [query.tokens_eq]
    intro hmem
    rcases List.mem_append.mp hmem with hmem | hmem
    · exact (hinner _ hmem).2 rfl
    · unfold terminator at hmem
      split at hmem
      · cases List.mem_singleton.mp hmem
      · cases hmem
  obtain ⟨hclosed, htokens⟩ := tokens_strip hunclosed
  rw [query.tokens_eq] at htokens
  unfold statement
  cases hsemicolon : query.semicolon with
  | false =>
    rw [hsemicolon, terminator, if_neg (by decide), List.append_nil] at htokens
    rw [rstrip_semicolon_eq hclosed (htokens ▸ hinner)]
    exact ⟨hclosed, htokens⟩
  | true =>
    rw [hsemicolon, terminator, if_pos rfl] at htokens
    rcases List.eq_nil_or_concat (stripChars query.text) with hnil | ⟨init, c, hconcat⟩
    · rw [hnil] at htokens
      exact absurd htokens.symm (List.append_ne_nil_of_right_ne_nil _ (List.cons_ne_nil _ _))
    rw [List.concat_eq_append] at hconcat
    have hblank := strip_last hconcat
    rw [hconcat] at hclosed htokens ⊢
    obtain rfl := sqlLexis.last_symbol hblank hclosed htokens
    have hinit := sqlLexis.closed_of_concat (by decide) hclosed
    rw [sqlLexis.tokens_concat_symbol hinit rfl rfl (by decide)] at htokens
    have heq := List.append_cancel_right htokens
    rw [List.reverse_append, List.reverse_singleton, List.singleton_append,
      List.dropWhile_cons_of_pos rfl, rstrip_semicolon_eq hinit (heq ▸ hinner)]
    exact ⟨hinit, heq⟩

/-! ## Mentions -/

theorem toUpper_lt {c : Char} (h : c.toUpper.toNat < 128) : c.toNat < 128 := by
  unfold Char.toUpper at h
  split at h
  · next hc =>
    have hle : c.toNat ≤ 122 := hc.2
    omega
  · exact h

/-- The upper case of a word whose upper case is ASCII. -/
theorem upperChars_word {w : List Char} (h : ∀ c ∈ upperWord w, c.toNat < 128) :
    upperChars w = upperWord w := by
  induction w with
  | nil => rfl
  | cons c w ih =>
    rw [upperWord, List.map_cons, List.forall_mem_cons, ← upperWord] at h
    rw [upperWord, List.map_cons, ← upperWord, ← ih h.2, upperChars, List.flatMap_cons, upperChar,
      if_pos (toUpper_lt h.1)]
    rfl

theorem upperChars_infix {t u : List Char} (h : t <:+: u) : upperChars t <:+: upperChars u := by
  obtain ⟨before, after, rfl⟩ := h
  refine ⟨upperChars before, upperChars after, ?_⟩
  simp only [upperChars, List.flatMap_append]

/-- A clause is mentioned. -/
theorem mentions_clause {query : Query} {keyword : String} {rest : List String}
    (c : Clause (keyword :: rest)) (hc : ∀ t ∈ c.tokens, t ∈ query.select.tokens)
    (hascii : (keyword.toList.all fun d => d.toNat < 128) = true) :
    mentions keyword query.text = true := by
  obtain ⟨words, body, hwords, hbody, hplain⟩ := c
  cases words with
  | nil => cases hwords
  | cons w words =>
    obtain ⟨hw, -⟩ := List.cons.inj hwords
    have hmem : Token.word w ∈ sqlLexis.tokens (statement query.text) := by
      rw [(statement_tokens query).2]
      exact hc _ (List.mem_append_left _ List.mem_cons_self)
    have hinfix := upperChars_infix (sqlLexis.word_infix hmem)
    have hlt : ∀ d ∈ upperWord w, d.toNat < 128 := by
      intro d hd
      rw [hw] at hd
      exact of_decide_eq_true (List.all_eq_true.mp hascii d hd)
    rw [upperChars_word hlt, hw] at hinfix
    exact (containsChars_iff _ _).mpr hinfix

theorem mentions_source {query : Query} {c : Clause ["FROM"]}
    (h : query.select.source = some c) : mentions "FROM" query.text = true := by
  refine mentions_clause c (fun t ht => ?_) rfl
  rw [Select.tokens, h]
  exact List.mem_append_right _ (List.mem_append_left _ ht)

theorem mentions_rows {query : Query} {c : Clause ["LIMIT"]}
    (h : query.select.rows = some c) : mentions "LIMIT" query.text = true := by
  refine mentions_clause c (fun t ht => ?_) rfl
  rw [Select.tokens, h]
  exact List.mem_append_right _ (List.mem_append_right _ (List.mem_append_right _
    (List.mem_append_right _ ht)))

/-- An identifier is the body of a clause. -/
theorem plain_identifier {t : Token} (h : isIdentifier t = true) : plain 0 [t] = true := by
  cases t with
  | word w => simpa [plain, isIdentifier] using h
  | quoted double text => rfl
  | symbol c => cases h
  | unclosed => cases h

/-! ## What is sent -/

/-- A clause with an identifier. -/
def identifierClause (keyword : String) (hupper : upperWord keyword.toList = keyword.toList)
    (t : Token) (ht : isIdentifier t = true) : Clause [keyword] where
  words := [keyword.toList]
  body := [t]
  words_eq := congrArg (List.cons · []) hupper
  body_ne := List.cons_ne_nil _ _
  body_plain := plain_identifier ht

theorem digit_range {c : Char} (h : c.isDigit = true) : 48 ≤ c.toNat ∧ c.toNat ≤ 57 := by
  have hval : 48 ≤ c.val ∧ c.val ≤ 57 := by simpa [Char.isDigit] using h
  exact ⟨hval.1, hval.2⟩

theorem digit_word {c : Char} (h : c.isDigit = true) : isWordChar c = true := by
  have hrange := digit_range h
  have hspace : isSpace c = false := by
    simp only [isSpace, Bool.or_eq_false_iff, Bool.and_eq_false_iff, decide_eq_false_iff_not,
      beq_eq_false_iff_ne]
    omega
  simp [isWordChar, hspace, Char.isAlphanum, h]

/-- No clause starts with a digit. -/
theorem digit_not_reserved {c : Char} (h : c.isDigit = true) (w : List Char) :
    isReserved (c :: w) = false := by
  have hrange := digit_range h
  have hupper : c.toUpper = c := by
    refine dif_neg fun hc => ?_
    have hle : 97 ≤ c.toNat := hc.1
    omega
  have hall : reserved.all (fun k => k.head?.all fun d => !d.isDigit) = true := rfl
  rw [isReserved, Bool.eq_false_iff]
  intro hmem
  have hhead := List.all_eq_true.mp hall _ (List.contains_iff_mem.mp hmem)
  simp [upperWord, hupper, h] at hhead

/-- The text of a number is one word. -/
theorem tokens_number (n : Nat) :
    ∃ t, sqlLexis.tokens (toString (n : Int)).toList = [t] ∧ isIdentifier t = true := by
  have htext : (toString (n : Int)).toList = Nat.toDigits 10 n := Nat.toList_repr
  have hdigits : ∀ c ∈ Nat.toDigits 10 n, c.isDigit = true :=
    fun c hc => Nat.isDigit_of_mem_toDigits (by decide) (by decide) hc
  rw [htext]
  cases hcons : Nat.toDigits 10 n with
  | nil => exact absurd hcons Nat.toDigits_ne_nil
  | cons c w =>
    rw [hcons] at hdigits
    refine ⟨_, sqlLexis.tokens_of_word fun d hd => digit_word (hdigits d hd), ?_⟩
    rw [isIdentifier, digit_not_reserved (hdigits c List.mem_cons_self)]
    rfl

/-- The stream that is asked for has a name. -/
theorem effectiveStream_name (stream : Stream) :
    ∃ t, sqlLexis.tokens (effectiveStream stream.text) = [t] ∧ isIdentifier t = true := by
  have hdefault : ∃ t, sqlLexis.tokens defaultStream = [t] ∧ isIdentifier t = true :=
    ⟨.word defaultStream, by decide, by decide⟩
  rw [effectiveStream]
  split_ifs with hempty hlogs hlogs
  · exact hdefault
  · exact hdefault
  · exact hdefault
  · exact stream.name.resolve_left fun hnil => hempty (by rw [hnil]; rfl)

/-- A text that is appended after a word. -/
theorem tokens_append_clause {sql text : List Char} {t : Token} (hsql : sqlLexis.Closed sql)
    (ht : sqlLexis.tokens text = [t]) (hclosed : t ≠ .unclosed) {c : Char} {w : List Char}
    (hw : ∀ d ∈ c :: w, sqlLexis.word d = true) :
    sqlLexis.Closed (sql ++ (' ' :: (c :: w ++ [' '])) ++ text) ∧
      sqlLexis.tokens (sql ++ (' ' :: (c :: w ++ [' '])) ++ text) =
        sqlLexis.tokens sql ++ [.word (c :: w), t] := by
  have hblank : sqlLexis.blank ' ' = true := rfl
  have htext : sqlLexis.Closed text := by
    refine sqlLexis.closed_of_tokens ?_
    rw [ht]
    exact fun hmem => hclosed (List.mem_singleton.mp hmem).symm
  have hword : sqlLexis.Closed (c :: w) := by
    refine sqlLexis.closed_of_tokens ?_
    rw [sqlLexis.tokens_of_word hw]
    intro hmem
    cases List.mem_singleton.mp hmem
  have hsplit : sql ++ (' ' :: (c :: w ++ [' '])) ++ text =
      sql ++ ' ' :: (c :: w ++ ' ' :: text) := by simp
  rw [hsplit]
  refine ⟨sqlLexis.closed_append_blank hsql
    (sqlLexis.closed_append_blank hword htext hblank) hblank, ?_⟩
  rw [sqlLexis.tokens_append_blank hsql hblank, sqlLexis.tokens_append_blank hword hblank,
    sqlLexis.tokens_of_word hw, ht]
  rfl

/-- The clause that is appended, unless its word is mentioned. -/
def appended (mentioned : Bool) (word : String) (t : Token) : List Token :=
  if mentioned then [] else [.word word.toList, t]

/-- The tokens of the SQL. -/
theorem completeSql_tokens (query : Query) (stream : Stream) (n : Nat) :
    ∃ t u, isIdentifier t = true ∧ isIdentifier u = true ∧
      sqlLexis.tokens (completeSql query.text stream.text n) =
        query.select.tokens ++ (appended (mentions "FROM" query.text) "FROM" t ++
          appended (mentions "LIMIT" query.text) "LIMIT" u) := by
  obtain ⟨t, ht, hident⟩ := effectiveStream_name stream
  obtain ⟨u, hu, hnumber⟩ := tokens_number n
  obtain ⟨hclosed, htokens⟩ := statement_tokens query
  have hne {t : Token} (h : isIdentifier t = true) : t ≠ .unclosed := by
    rintro rfl
    cases h
  have hfrom := tokens_append_clause hclosed ht (hne hident) (c := 'F') (w := "ROM".toList)
    (List.all_eq_true.mp rfl)
  refine ⟨t, u, hident, hnumber, ?_⟩
  unfold completeSql
  dsimp only
  cases hmentions : mentions "FROM" query.text with
  | true =>
    cases hlimit : mentions "LIMIT" query.text with
    | true => simpa [appended] using htokens
    | false =>
      have happend := tokens_append_clause hclosed hu (hne hnumber) (c := 'L') (w := "IMIT".toList)
        (List.all_eq_true.mp rfl)
      rw [htokens] at happend
      exact happend.2
  | false =>
    cases hlimit : mentions "LIMIT" query.text with
    | true =>
      rw [htokens] at hfrom
      exact hfrom.2
    | false =>
      have happend := tokens_append_clause hfrom.1 hu (hne hnumber) (c := 'L')
        (w := "IMIT".toList) (List.all_eq_true.mp rfl)
      refine happend.2.trans ?_
      rw [hfrom.2, htokens, List.append_assoc]
      rfl

/-! ## The exact condition -/

/-- The keyword that the tokens start with, in upper case. -/
def keyword? : List Token → Option (List Char)
  | .word w :: _ => some (upperWord w)
  | _ => none

theorem keyword?_clause {keyword : String} {rest : List String} (c : Clause (keyword :: rest))
    (ts : List Token) : keyword? (c.tokens ++ ts) = some keyword.toList := by
  obtain ⟨words, body, hwords, hbody, hplain⟩ := c
  cases words with
  | nil => cases hwords
  | cons w words => exact congrArg some (List.cons.inj hwords).1

theorem clause_length {keywords : List String} (c : Clause keywords) :
    keywords.length < c.tokens.length := by
  have hwords := congrArg List.length c.words_eq
  have hbody := List.length_pos_of_ne_nil c.body_ne
  rw [List.length_map, List.length_map] at hwords
  rw [Clause.tokens, List.length_append, List.length_map]
  omega

/-- The clauses after the columns. -/
theorem fills_tokens {s s' : Select} (h : Fills s s') {ts : List Token}
    (htokens : s.tokens ++ ts = s'.tokens) :
    optional s.source ++ (optional s.condition ++ (optional s.keys ++ (optional s.rows ++ ts))) =
      optional s'.source ++ (optional s.condition ++ (optional s.keys ++ optional s'.rows)) := by
  simp only [Select.tokens, h.columns, h.condition, h.keys, List.append_assoc] at htokens
  exact List.append_cancel_left htokens

/-- Without a FROM clause, what is appended starts with one, right after the columns. -/
theorem missing_source {s s' : Select} (h : Fills s s') {ts : List Token}
    (htokens : s.tokens ++ ts = s'.tokens) (hsource : s.source = none) :
    s.condition = none ∧ s.keys = none ∧ s.rows = none ∧ keyword? ts = some "FROM".toList := by
  obtain ⟨c', hc'⟩ := Option.isSome_iff_exists.mp h.source
  have hkeyword : keyword? (optional s.condition ++ (optional s.keys ++
      (optional s.rows ++ ts))) = some "FROM".toList := by
    have heq := fills_tokens h htokens
    rw [hsource, hc'] at heq
    rw [← List.nil_append (optional s.condition ++ _)]
    exact (congrArg keyword? heq).trans (keyword?_clause c' _)
  cases hcondition : s.condition with
  | some c =>
    rw [hcondition] at hkeyword
    exact absurd ((keyword?_clause c _).symm.trans hkeyword) (by decide)
  | none =>
    cases hkeys : s.keys with
    | some c =>
      rw [hcondition, hkeys] at hkeyword
      exact absurd ((keyword?_clause c _).symm.trans hkeyword) (by decide)
    | none =>
      cases hrows : s.rows with
      | some c =>
        rw [hcondition, hkeys, hrows] at hkeyword
        exact absurd ((keyword?_clause c _).symm.trans hkeyword) (by decide)
      | none =>
        rw [hcondition, hkeys, hrows] at hkeyword
        exact ⟨rfl, rfl, rfl, hkeyword⟩

/-- Without a LIMIT clause, what is appended ends with one. -/
theorem missing_rows {s s' : Select} (h : Fills s s') {ts : List Token}
    (htokens : s.tokens ++ ts = s'.tokens) (hrows : s.rows = none) {c : Clause ["FROM"]}
    (hsource : s.source = some c) : ts ≠ [] := by
  have heq := fills_tokens h htokens
  obtain ⟨r, hr⟩ := Option.isSome_iff_exists.mp h.rows
  rw [hsource, h.source_kept c hsource, hrows, hr] at heq
  have hts : ts = r.tokens :=
    List.append_cancel_left (List.append_cancel_left (List.append_cancel_left heq))
  have hlength := clause_length r
  rw [hts]
  exact List.ne_nil_of_length_pos (Nat.zero_lt_of_lt hlength)

/-- Without a FROM and a LIMIT clause, what is appended are both. -/
theorem missing_both {s s' : Select} (h : Fills s s') {ts : List Token}
    (htokens : s.tokens ++ ts = s'.tokens) (hrows : s.rows = none) (hsource : s.source = none) :
    2 < ts.length := by
  have heq := fills_tokens h htokens
  obtain ⟨hcondition, hkeys, -, -⟩ := missing_source h htokens hsource
  obtain ⟨r, hr⟩ := Option.isSome_iff_exists.mp h.rows
  obtain ⟨c, hc⟩ := Option.isSome_iff_exists.mp h.source
  rw [hsource, hcondition, hkeys, hrows, hc, hr] at heq
  have hts : ts = c.tokens ++ r.tokens := heq
  have hrowsLength := clause_length r
  have hsourceLength := clause_length c
  rw [hts, List.length_append]
  simp only [List.length_cons, List.length_nil] at hrowsLength hsourceLength
  omega

/-- What the statement and the mentions must be, if the SQL is right. -/
theorem completable_of_fills {query : Query} {s' : Select} {t u : Token}
    (h : Fills query.select s')
    (htokens : query.select.tokens ++ (appended (mentions "FROM" query.text) "FROM" t ++
      appended (mentions "LIMIT" query.text) "LIMIT" u) = s'.tokens) : Completable query where
  source := by
    cases hsource : query.select.source with
    | some c => exact .inl rfl
    | none =>
      obtain ⟨hcondition, hkeys, hrows, hkeyword⟩ := missing_source h htokens hsource
      refine .inr ⟨?_, hcondition, hkeys, hrows⟩
      cases hmentions : mentions "FROM" query.text with
      | false => rfl
      | true =>
        rw [hmentions] at hkeyword
        have hne : upperWord "LIMIT".toList ≠ "FROM".toList := by decide
        cases hlimit : mentions "LIMIT" query.text with
        | true =>
          rw [hlimit] at hkeyword
          cases hkeyword
        | false =>
          rw [hlimit] at hkeyword
          exact absurd (Option.some.inj hkeyword) hne
  rows := by
    cases hrows : query.select.rows with
    | some c => exact .inl rfl
    | none =>
      refine .inr ?_
      cases hlimit : mentions "LIMIT" query.text with
      | false => rfl
      | true =>
        rw [hlimit] at htokens
        cases hsource : query.select.source with
        | some c =>
          rw [mentions_source hsource] at htokens
          exact absurd rfl (missing_rows h htokens hrows hsource)
        | none =>
          have hlength := missing_both h htokens hrows hsource
          rw [List.length_append] at hlength
          cases hmentions : mentions "FROM" query.text with
          | true => simp [appended, hmentions] at hlength
          | false => simp [appended, hmentions] at hlength

/-- The statement that is sent, under the condition. -/
theorem fills_of_completable {query : Query} (h : Completable query) {t u : Token}
    (ht : isIdentifier t = true) (hu : isIdentifier u = true) :
    ∃ s', query.select.tokens ++ (appended (mentions "FROM" query.text) "FROM" t ++
      appended (mentions "LIMIT" query.text) "LIMIT" u) = s'.tokens ∧ Fills query.select s' := by
  refine ⟨{ query.select with
    source := some (query.select.source.getD (identifierClause "FROM" rfl t ht))
    rows := some (query.select.rows.getD (identifierClause "LIMIT" rfl u hu)) }, ?_, ?_⟩
  · have hrows : optional query.select.rows ++
        appended (mentions "LIMIT" query.text) "LIMIT" u =
          (query.select.rows.getD (identifierClause "LIMIT" rfl u hu)).tokens := by
      cases hlimit : query.select.rows with
      | some c =>
        rw [mentions_rows hlimit]
        exact List.append_nil _
      | none =>
        have hmentions := h.rows.resolve_left (by rw [hlimit]; decide)
        rw [hmentions]
        rfl
    cases hsource : query.select.source with
    | some c =>
      simp only [Select.tokens, hsource, mentions_source hsource, List.append_assoc]
      rw [appended, if_pos rfl, List.nil_append, hrows]
      rfl
    | none =>
      obtain ⟨hmentions, hcondition, hkeys, hnone⟩ :=
        h.source.resolve_left (by rw [hsource]; decide)
      simp only [Select.tokens, hsource, hcondition, hkeys, hnone, hmentions, List.append_assoc]
      rw [hnone] at hrows
      exact congrArg (query.select.columns.tokens ++ .word "FROM".toList :: t :: ·) hrows
  · refine ⟨rfl, rfl, fun c hc => ?_, rfl, rfl, rfl, fun c hc => ?_⟩
    · exact congrArg some (by rw [hc]; rfl)
    · exact congrArg some (by rw [hc]; rfl)

/-- The request is right if and only if: the query has a FROM clause, or it does not mention FROM
and has no clause that comes after one; and it has a LIMIT clause, or does not mention LIMIT. -/
theorem payload_right_iff (nowUs : Int) (query : Query) (stream : Stream)
    (timeRangeMinutes limit : Int) :
    Right query (payload nowUs query.text stream.text timeRangeMinutes limit) ↔
      Completable query := by
  obtain ⟨n, hn⟩ : ∃ n : Nat, max 1 (min 500 limit) = n :=
    Int.eq_ofNat_of_zero_le (by omega)
  obtain ⟨t, u, ht, hu, htokens⟩ := completeSql_tokens query stream n
  have hsql : (payload nowUs query.text stream.text timeRangeMinutes limit).sql =
      completeSql query.text stream.text n := congrArg (completeSql query.text stream.text) hn
  constructor
  · rintro ⟨⟨s', hs', hfills⟩, -, -⟩
    rw [hsql, htokens] at hs'
    exact completable_of_fills hfills hs'
  · intro h
    obtain ⟨s', hs', hfills⟩ := fills_of_completable h ht hu
    refine ⟨⟨s', by rw [hsql, htokens, hs'], hfills⟩, ?_, ?_⟩
    · show nowUs - max 1 (min 1440 timeRangeMinutes) * 60 * 1000000 < nowUs
      omega
    · show 1 ≤ max 1 (min 500 limit) ∧ max 1 (min 500 limit) ≤ 500
      omega

/-- A query for a column whose name has the letters of LIMIT. -/
def rateLimits : Query where
  text := "SELECT rate_limit FROM app_logs;".toList
  select :=
    { columns :=
        ⟨["SELECT".toList], [.word "rate_limit".toList], rfl, List.cons_ne_nil _ _, by decide⟩
      source := some
        ⟨["FROM".toList], [.word "app_logs".toList], rfl, List.cons_ne_nil _ _, by decide⟩
      condition := none
      keys := none
      rows := none }
  semicolon := true
  tokens_eq := by decide

/-- No LIMIT clause is sent. -/
theorem rate_limit_unlimited :
    ¬ Right rateLimits (payload 1700000000000000 rateLimits.text [] 30 50) := by
  rintro ⟨⟨s', hs', hfills⟩, -, -⟩
  obtain ⟨t, u, -, -, htokens⟩ := completeSql_tokens rateLimits ⟨[], .inl rfl⟩ 50
  have hsql : (payload 1700000000000000 rateLimits.text [] 30 50).sql =
      completeSql rateLimits.text [] (50 : Nat) := rfl
  rw [hsql, htokens] at hs'
  rcases (completable_of_fills hfills hs').rows with h | h
  · exact absurd h (by decide)
  · exact absurd h (by decide)

end Tools
end AutoSRE
