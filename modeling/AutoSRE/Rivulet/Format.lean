import AutoSRE.Lib.JsonText
import AutoSRE.Rivulet.Checkout
import Mathlib.Algebra.Group.Nat.Defs

/-!
# The order event on the wire

What the API gateway publishes, and what the ingestion worker reads from it.

* The producer: `eventEntries` is the map of `processCheckout`, in an order that `Map.of` does not
  fix. The `ObjectMapper` writes a JSON text of it; which one is left open. `streamFields` is the
  entry that `produce` appends. A `Publication` is all of that for one request.
* The consumer: `extractPayload` reads the payload field, with the JSON reader of `Lib.JsonText`;
  `goValue` is what `encoding/json` makes of a document.
* `publication_accepted`: the worker accepts the payload of every publication, with the event of the
  producer, and PostgreSQL can insert its row.
-/

namespace AutoSRE
namespace Rivulet

open Lib JsonText

/-! ## UUIDs -/

/-- `java.util.UUID`. -/
abbrev Uuid := BitVec 128

/-- The hexadecimal digit at a position, the highest first. -/
def Uuid.digit (u : Uuid) (i : Nat) : Char := Nat.digitChar (u.toNat / Nat.pow 16 (31 - i) % 16)

/-- `len` hexadecimal digits. -/
def Uuid.group (u : Uuid) (start len : Nat) : List Char :=
  (List.range len).map fun k => Uuid.digit u (start + k)

/-- The characters of `UUID.toString`. -/
def Uuid.chars (u : Uuid) : List Char :=
  Uuid.group u 0 8 ++ '-' :: (Uuid.group u 8 4 ++ '-' :: (Uuid.group u 12 4 ++
    '-' :: (Uuid.group u 16 4 ++ '-' :: Uuid.group u 20 12)))

/-- `UUID.toString`. -/
def Uuid.text (u : Uuid) : String := String.ofList (Uuid.chars u)

/-! ## The producer -/

/-- A value of the map of `processCheckout`. -/
inductive FieldValue where
  | string (s : String)
  | integer (n : Int)
deriving DecidableEq

/-- The map of `processCheckout`. -/
def eventEntries (order : Order) (eventId : Uuid) : List (String × FieldValue) :=
  [("event_id", .string (Uuid.text eventId)), ("user_id", .string order.userId),
    ("sku", .string order.sku), ("quantity", .integer order.quantity)]

/-- The decimal digits of an integer. -/
def integerText : Int → List Char
  | .ofNat n => Nat.toDigits 10 n
  | .negSucc n => '-' :: Nat.toDigits 10 (n + 1)

/-- The JSON document of a value. -/
def FieldValue.doc : FieldValue → Doc
  | .string s => .string (codePoints s)
  | .integer n => .number (integerText n)

/-- The JSON document of a map. -/
def entriesDoc (entries : List (String × FieldValue)) : Doc :=
  .object (entries.map fun e => (codePoints e.1, e.2.doc))

/-- The `ObjectMapper` of Jackson: what it writes, if it can, is a JSON text of the map. -/
structure ObjectMapper where
  writeValueAsString : List (String × FieldValue) → Option String
  standard : ∀ entries text, writeValueAsString entries = some text →
    Denotes (.value (entriesDoc entries)) text.toList

/-- The stream fields of `produce`, or the message of its exception. -/
def streamFields (traceparent tracestate payloadJson : String) :
    Except String (List (String × String)) :=
  if isBlank payloadJson then .error "payloadJson must not be blank"
  else if isBlank traceparent then .error "traceparent must not be null or blank"
  else .ok [("traceparent", traceparent), ("tracestate", tracestate), ("payload", payloadJson)]

/-- What one request publishes, with the steps that lead there. -/
structure Publication (mapper : ObjectMapper) (request : CheckoutRequest) where
  order : Order
  accepted : request.validate = .ok order
  eventId : Uuid
  /-- The entries of `Map.of`, in its order. -/
  entries : List (String × FieldValue)
  mapOf : entries.Perm (eventEntries order eventId)
  stock : Except String (Option Int)
  payload : String
  prepared : prepareEvent order stock (mapper.writeValueAsString entries) = .ok payload
  traceparent : String
  tracestate : String
  fields : List (String × String)
  produced : streamFields traceparent tracestate payload = .ok fields

/-! ## The consumer -/

/-- A code point in a Go string: a surrogate becomes the replacement character. -/
def goRune (n : Nat) : Char := if n.isValidChar then Char.ofNat n else Char.ofNat 0xfffd

/-- The Go string of a JSON string. -/
def goString (s : List Nat) : String := String.ofList (s.map goRune)

/-- The value of a literal without a fraction and an exponent. -/
def integerOf : List Char → Option Int
  | '-' :: t => if isDigits t then some (-(Nat.ofDigitChars 10 t 0 : Int)) else none
  | t => if isDigits t then some (Nat.ofDigitChars 10 t 0 : Int) else none

/-- The value of a number. -/
def goNumber (literal : List Char) : Value :=
  match integerOf literal with
  | some n => .integer n
  | none => .decimal (String.ofList literal)

mutual

/-- What `encoding/json` makes of a document. -/
def goValue : Doc → Value
  | .null => .null
  | .bool b => .bool b
  | .number literal => goNumber literal
  | .string s => .string (goString s)
  | .array items => .array (goItems items)
  | .object members => .object (goMembers members)

def goItems : List Doc → List Value
  | [] => []
  | v :: vs => goValue v :: goItems vs

def goMembers : List (List Nat × Doc) → List (String × Value)
  | [] => []
  | (k, v) :: ms => (goString k, goValue v) :: goMembers ms

end

/-- `rawPayload` of the payload field of an entry, and `json.Valid`. -/
def extractPayload (fields : List (String × String)) : Payload :=
  match fields.lookup "payload" with
  | none => .missing
  | some text =>
    match read [] text.toList with
    | none => .invalidJson
    | some doc => .json (goValue doc)

/-! ## UUID texts -/

/-- The character at a position of a UUID. -/
def uuidChar (i : Nat) (c : Char) : Bool :=
  if [8, 13, 18, 23].contains i then c == '-' else isHexDigit c

theorem isCanonicalUuid_iff (s : String) : isCanonicalUuid s = true ↔
    s.toList.length = 36 ∧ ∀ i c, s.toList[i]? = some c → uuidChar i c = true := by
  unfold isCanonicalUuid
  rw [Bool.and_eq_true, beq_iff_eq, List.all_eq_true]
  refine and_congr_right fun _ => ⟨fun h i c hc => ?_, fun h p hp => ?_⟩
  · exact h (c, i) (List.mem_zipIdx_iff_getElem?.mpr hc)
  · exact h p.2 p.1 (List.mem_zipIdx_iff_getElem?.mp hp)

theorem isHexDigit_digitChar (n : Nat) : isHexDigit (Nat.digitChar (n % 16)) = true := by
  have h : ∀ m < 16, isHexDigit (Nat.digitChar m) = true := by decide
  exact h _ (Nat.mod_lt _ (by decide))

/-- `UUID.toString` is canonical. -/
theorem uuidText_canonical (u : Uuid) : isCanonicalUuid (Uuid.text u) = true := by
  have h : ∀ i, isHexDigit (Uuid.digit u i) = true := fun i => isHexDigit_digitChar _
  simp [isCanonicalUuid, Uuid.text, Uuid.chars, Uuid.group, List.range_succ, h]

theorem digitChar_inj {m n : Nat} (hm : m < 16) (hn : n < 16)
    (h : Nat.digitChar m = Nat.digitChar n) : m = n := by
  have hall : ∀ m < 16, ∀ n < 16, Nat.digitChar m = Nat.digitChar n → m = n := by decide
  exact hall m hm n hn h

/-- The digits of a group are those of the id. -/
theorem group_inj {u v : Uuid} {start len : Nat} {xs ys : List Char}
    (h : Uuid.group u start len ++ xs = Uuid.group v start len ++ ys) :
    (∀ i, start ≤ i → i < start + len → Uuid.digit u i = Uuid.digit v i) ∧ xs = ys := by
  obtain ⟨hgroup, hrest⟩ := List.append_inj h (by simp [Uuid.group])
  refine ⟨fun i hs hi => ?_, hrest⟩
  have hd := List.map_inj_left.mp hgroup (i - start) (List.mem_range.mpr (by omega))
  rwa [Nat.add_sub_cancel' hs] at hd

/-- Numbers with the same digits agree below the highest one. -/
theorem mod_pow_eq_of_digits {a b k : Nat} (h : ∀ i < k, a / 16 ^ i % 16 = b / 16 ^ i % 16) :
    a % 16 ^ k = b % 16 ^ k := by
  induction k with
  | zero => simp [Nat.mod_one]
  | succ k ih =>
    rw [Nat.mod_pow_succ, Nat.mod_pow_succ, h k (Nat.lt_succ_self k),
      ih fun i hi => h i (Nat.lt_succ_of_lt hi)]

/-- `UUID.toString` tells the ids apart. -/
theorem Uuid.text_inj {u v : Uuid} (h : Uuid.text u = Uuid.text v) : u = v := by
  have hchars : Uuid.chars u = Uuid.chars v := String.ofList_injective h
  have hdigits : ∀ i < 32, Uuid.digit u i = Uuid.digit v i := by
    obtain ⟨h₀, hchars⟩ := group_inj hchars
    obtain ⟨h₁, hchars⟩ := group_inj (List.cons.inj hchars).2
    obtain ⟨h₂, hchars⟩ := group_inj (List.cons.inj hchars).2
    obtain ⟨h₃, hchars⟩ := group_inj (List.cons.inj hchars).2
    have hlast : Uuid.group u 20 12 ++ [] = Uuid.group v 20 12 ++ [] := by
      simpa using (List.cons.inj hchars).2
    obtain ⟨h₄, -⟩ := group_inj hlast
    intro i hi
    by_cases hi₀ : i < 8
    · exact h₀ i (Nat.zero_le i) (by omega)
    by_cases hi₁ : i < 12
    · exact h₁ i (by omega) hi₁
    by_cases hi₂ : i < 16
    · exact h₂ i (by omega) hi₂
    by_cases hi₃ : i < 20
    · exact h₃ i (by omega) hi₃
    exact h₄ i (by omega) hi
  have hnat : u.toNat % 16 ^ 32 = v.toNat % 16 ^ 32 := by
    refine mod_pow_eq_of_digits fun i hi => ?_
    have hd := hdigits (31 - i) (by omega)
    rw [Uuid.digit, Uuid.digit, show 31 - (31 - i) = i by omega] at hd
    exact digitChar_inj (Nat.mod_lt _ (by decide)) (Nat.mod_lt _ (by decide)) hd
  have hlt : ∀ w : Uuid, w.toNat < 16 ^ 32 := fun w => w.isLt
  rw [Nat.mod_eq_of_lt (hlt u), Nat.mod_eq_of_lt (hlt v)] at hnat
  exact BitVec.eq_of_toNat_eq hnat

/-- Digits and a hyphen in front of an even number of further bytes. -/
theorem uuidBytes_group {n : Nat} (hn : 0 < n) (he : n % 2 = 0) (rest : List Char) :
    ∀ (k : Nat) (g : List Char), 0 < k → g.length = 2 * k → (∀ c ∈ g, isHexDigit c = true) →
      uuidBytes (n + k) (g ++ '-' :: rest) = uuidBytes n rest
  | 1, [a, b], _, _, hg => by
    have ha := hg a List.mem_cons_self
    have hb := hg b (List.mem_cons_of_mem a List.mem_cons_self)
    simp [uuidBytes, ha, hb, hn, he]
  | k + 2, a :: b :: c :: g, _, hlen, hg => by
    have ha := hg a List.mem_cons_self
    have hb := hg b (List.mem_cons_of_mem a List.mem_cons_self)
    have hc : c ≠ '-' := by
      rintro rfl
      have := hg '-' (by simp)
      revert this
      decide
    have hrec := uuidBytes_group hn he rest (k + 1) (c :: g) (by omega)
      (by simp only [List.length_cons] at hlen ⊢; omega)
      fun x hx => hg x (List.mem_cons_of_mem a (List.mem_cons_of_mem b hx))
    rw [← hrec, show n + (k + 2) = (n + (k + 1)) + 1 by omega]
    simp [uuidBytes, ha, hb, hc]
  | k + 2, [a, b], _, hlen, _ => by
    simp only [List.length_cons, List.length_nil] at hlen
    omega

/-- The digits at the end of a UUID. -/
theorem uuidBytes_digits :
    ∀ (k : Nat) (g : List Char), g.length = 2 * k → (∀ c ∈ g, isHexDigit c = true) →
      uuidBytes k g = some []
  | 0, [], _, _ => rfl
  | k + 1, a :: b :: g, hlen, hg => by
    have ha := hg a List.mem_cons_self
    have hb := hg b (List.mem_cons_of_mem a List.mem_cons_self)
    have hrec := uuidBytes_digits k g (by simp only [List.length_cons] at hlen; omega)
      fun x hx => hg x (List.mem_cons_of_mem a (List.mem_cons_of_mem b hx))
    have hhead : g.head? ≠ some '-' := by
      intro hh
      have := hg '-' (List.mem_cons_of_mem a (List.mem_cons_of_mem b (List.mem_of_head? hh)))
      revert this
      decide
    simp [uuidBytes, ha, hb, hhead, hrec]
  | k + 1, [a], hlen, _ => by simp at hlen; omega
  | k + 1, [], hlen, _ => by simp at hlen

/-- PostgreSQL reads every canonical UUID. -/
theorem isUuid_of_canonical {s : String} (h : isCanonicalUuid s = true) : isUuid s = true := by
  obtain ⟨hlen, hch⟩ := (isCanonicalUuid_iff s).mp h
  generalize hcs : s.toList = cs at hlen hch
  -- The hyphens, and the digits of a group.
  have hsplit : ∀ i, i < 36 → [8, 13, 18, 23].contains i = true →
      cs.drop i = '-' :: cs.drop (i + 1) := by
    intro i hi hy
    have hlt : i < cs.length := by omega
    have hc := hch i cs[i] (List.getElem?_eq_getElem hlt)
    simp only [uuidChar, hy, if_true, beq_iff_eq] at hc
    rw [List.drop_eq_getElem_cons hlt, hc]
  have hgroup : ∀ start len, (∀ k, k < len → [8, 13, 18, 23].contains (start + k) = false) →
      ∀ c ∈ (cs.drop start).take len, isHexDigit c = true := by
    intro start len hno c hc
    obtain ⟨k, hk, rfl⟩ := List.mem_iff_getElem.mp hc
    simp only [List.length_take, List.length_drop] at hk
    have hc' := hch (start + k) cs[start + k] (List.getElem?_eq_getElem (by omega))
    simp only [uuidChar, hno k (by omega), Bool.false_eq_true, if_false] at hc'
    simpa using hc'
  have hcut : ∀ start len, cs.drop start = (cs.drop start).take len ++ cs.drop (start + len) := by
    intro start len
    rw [← List.drop_drop, List.take_append_drop]
  have hbytes : uuidBytes (12 + 4) (cs.drop 0) = some [] := by
    rw [hcut 0 8, hsplit 8 (by decide) (by decide), uuidBytes_group (by decide) (by decide) _ 4 _
      (by decide) (by simp [hlen]) (hgroup 0 8 (by decide))]
    show uuidBytes (10 + 2) _ = some []
    rw [hcut 9 4, hsplit 13 (by decide) (by decide), uuidBytes_group (by decide) (by decide) _ 2 _
      (by decide) (by simp [hlen]) (hgroup 9 4 (by decide))]
    show uuidBytes (8 + 2) _ = some []
    rw [hcut 14 4, hsplit 18 (by decide) (by decide), uuidBytes_group (by decide) (by decide) _ 2 _
      (by decide) (by simp [hlen]) (hgroup 14 4 (by decide))]
    show uuidBytes (6 + 2) _ = some []
    rw [hcut 19 4, hsplit 23 (by decide) (by decide), uuidBytes_group (by decide) (by decide) _ 2 _
      (by decide) (by simp [hlen]) (hgroup 19 4 (by decide))]
    refine uuidBytes_digits 6 _ (by simp [hlen]) fun c hc => hgroup 24 12 (by decide) c ?_
    rwa [List.take_of_length_le (by simp [hlen])]
  unfold isUuid
  rw [hcs]
  split
  · rename_i cs'
    exact absurd (hch 0 '{' rfl) (by decide)
  · simpa using hbytes

theorem toLower_eq_self {c : Char} (h : ¬ (65 ≤ c.toNat ∧ c.toNat ≤ 90)) : c.toLower = c :=
  dif_neg h

theorem toLower_toLower (c : Char) : c.toLower.toLower = c.toLower := by
  by_cases h : 65 ≤ c.toNat ∧ c.toNat ≤ 90
  · refine toLower_eq_self fun hl => ?_
    have hval : c.toLower.toNat = (c.val + 32).toNat :=
      congrArg Char.toNat (dif_pos (c := c.val ≥ 'A'.val ∧ c.val ≤ 'Z'.val) h)
    have hc : c.val.toNat = c.toNat := rfl
    have h32 : (32 : UInt32).toNat = 32 := rfl
    rw [UInt32.toNat_add, hc] at hval
    omega
  · rw [toLower_eq_self h, toLower_eq_self h]

theorem isHexDigit_toLower {c : Char} (h : isHexDigit c = true) : isHexDigit c.toLower = true := by
  unfold isHexDigit at *
  rw [toLower_toLower]
  simp only [Bool.or_eq_true] at h ⊢
  refine h.imp_left fun hd => ?_
  have hle : c.toNat ≤ 57 := by
    simp only [Char.isDigit, Bool.and_eq_true, decide_eq_true_eq] at hd
    exact hd.2
  rwa [toLower_eq_self (by omega)]

/-- The lower-case text of a canonical UUID is canonical. -/
theorem canonical_lower {s : String} (h : isCanonicalUuid s = true) :
    isCanonicalUuid (s.map Char.toLower) = true := by
  obtain ⟨hlen, hch⟩ := (isCanonicalUuid_iff s).mp h
  refine (isCanonicalUuid_iff _).mpr ⟨by simpa using hlen, fun i c hc => ?_⟩
  simp only [String.toList_map, List.getElem?_map, Option.map_eq_some_iff] at hc
  obtain ⟨d, hd, rfl⟩ := hc
  have hu := hch i d hd
  unfold uuidChar at hu ⊢
  split
  · rename_i hy
    simp only [hy, if_true, beq_iff_eq] at hu
    subst hu
    rfl
  · rename_i hy
    simp only [hy] at hu
    exact isHexDigit_toLower hu

/-- A canonical UUID is a text that PostgreSQL can store, and not blank. -/
theorem isText_of_canonical {s : String} (h : isCanonicalUuid s = true) :
    isText s = true ∧ s.toList.any (· != ' ') = true ∧ s ≠ "" := by
  obtain ⟨hlen, hch⟩ := (isCanonicalUuid_iff s).mp h
  have hne : ∀ c ∈ s.toList, c ≠ Char.ofNat 0 ∧ c ≠ ' ' := by
    intro c hc
    obtain ⟨i, hi, rfl⟩ := List.mem_iff_getElem.mp hc
    have hu := hch i _ (List.getElem?_eq_getElem hi)
    unfold uuidChar at hu
    constructor
    · intro h0
      rw [h0] at hu
      split at hu <;> revert hu <;> decide
    · intro h0
      rw [h0] at hu
      split at hu <;> revert hu <;> decide
  refine ⟨?_, ?_, ?_⟩
  · simp only [isText, List.all_eq_true, bne_iff_ne]
    exact fun c hc => (hne c hc).1
  · obtain ⟨c, hc⟩ := List.exists_mem_of_length_pos (l := s.toList) (by omega)
    exact List.any_eq_true.mpr ⟨c, hc, by simpa using (hne c hc).2⟩
  · rintro rfl
    cases hlen

/-! ## From the document to the event -/

/-- A Go string has the characters of a well-formed string. -/
theorem goString_codePoints (s : String) : goString (codePoints s) = s := by
  have h : (codePoints s).map goRune = s.toList := by
    rw [codePoints, List.map_map]
    refine (List.map_congr_left fun c _ => ?_).trans (List.map_id _)
    have hc : c.toNat.isValidChar := c.valid
    simp [goRune, hc]
  rw [goString, h, String.ofList_toList]

theorem isDigits_toDigits (n : Nat) : isDigits (Nat.toDigits 10 n) = true := by
  simp only [isDigits, Bool.and_eq_true, Bool.not_eq_true', List.isEmpty_eq_false_iff,
    List.all_eq_true]
  exact ⟨Nat.toDigits_ne_nil, fun c hc => Nat.isDigit_of_mem_toDigits (by decide) (by decide) hc⟩

/-- The digits of an integer are read as it. -/
theorem goNumber_integerText (n : Int) : goNumber (integerText n) = .integer n := by
  have h : integerOf (integerText n) = some n := by
    cases n with
    | ofNat n =>
      unfold integerOf integerText
      simp only
      split
      · rename_i t heq
        have := isDigits_toDigits n
        rw [heq] at this
        exact absurd this (by simp [isDigits])
      · simp [isDigits_toDigits, Nat.ofDigitChars_ten_toDigits]
    | negSucc n =>
      simp only [integerText, integerOf, isDigits_toDigits, if_true,
        Nat.ofDigitChars_ten_toDigits]
      rfl
  rw [goNumber, h]

/-- The value of an entry in Go. -/
def FieldValue.value : FieldValue → Value
  | .string s => .string s
  | .integer n => .integer n

theorem goValue_doc (v : FieldValue) : goValue v.doc = v.value := by
  cases v with
  | string s => simp [FieldValue.doc, FieldValue.value, goValue, goString_codePoints]
  | integer n => simp [FieldValue.doc, FieldValue.value, goValue, goNumber_integerText]

theorem goMembers_entries (entries : List (String × FieldValue)) :
    goMembers (entries.map fun e => (codePoints e.1, e.2.doc)) =
      entries.map fun e => (e.1, e.2.value) := by
  induction entries with
  | nil => rfl
  | cons e entries ih =>
    simp only [List.map_cons, goMembers, goString_codePoints, goValue_doc, ih]

/-- What the worker's fields are after one more entry. -/
def storeEntry (event : OrderEvent) (e : String × FieldValue) : OrderEvent :=
  (storeMember event e.1 e.2.value).1

/-- Entries that are stored without an error. -/
theorem storeMembers_entries {entries : List (String × FieldValue)}
    (h : ∀ e ∈ entries, ∀ event, (storeMember event e.1 e.2.value).2 = none)
    (event : OrderEvent) :
    storeMembers event none (entries.map fun e => (e.1, e.2.value)) =
      (entries.foldl storeEntry event, none) := by
  induction entries generalizing event with
  | nil => rfl
  | cons e entries ih =>
    simp only [List.map_cons, storeMembers, h e List.mem_cons_self, Option.or_none,
      List.foldl_cons]
    exact ih (fun e' he' => h e' (List.mem_cons_of_mem e he')) _

section entries

variable (order : Order) (eventId : Uuid)

/-- The fields of the worker, by the entry that is stored. -/
theorem storeMember_eventId (event : OrderEvent) (s : String) :
    storeMember event "event_id" (.string s) = ({ event with eventId := s }, none) := rfl

theorem storeMember_userId (event : OrderEvent) (s : String) :
    storeMember event "user_id" (.string s) = ({ event with userId := s }, none) := rfl

theorem storeMember_sku (event : OrderEvent) (s : String) :
    storeMember event "sku" (.string s) = ({ event with sku := s }, none) := rfl

theorem storeMember_quantity (event : OrderEvent) {n : Int} (hn : 0 < n ∧ n ≤ maxInt4) :
    storeMember event "quantity" (.integer n) = ({ event with quantity := n }, none) := by
  have h : minInt64 ≤ n ∧ n ≤ maxInt64 := by
    simp only [minInt64, maxInt64, maxInt4] at *
    omega
  have hstore : storeInt "quantity" event.quantity (.integer n) = (n, none) := if_pos h
  show ({ event with quantity := (storeInt "quantity" event.quantity (.integer n)).1 },
    (storeInt "quantity" event.quantity (.integer n)).2) = _
  rw [hstore]

/-- The event of an order. -/
def orderEvent : OrderEvent where
  eventId := Uuid.text eventId
  userId := order.userId
  sku := order.sku
  quantity := order.quantity

/-- The entries give the event, in any order. -/
theorem unmarshal_entries (hq : order.quantity ≤ maxInt4) {entries : List (String × FieldValue)}
    (hp : entries.Perm (eventEntries order eventId)) :
    unmarshal (goValue (entriesDoc entries)) = .ok (orderEvent order eventId) := by
  have hn : 0 < order.quantity ∧ order.quantity ≤ maxInt4 := ⟨order.quantity_pos, hq⟩
  have hstored : ∀ e ∈ eventEntries order eventId, ∀ event,
      (storeMember event e.1 e.2.value).2 = none := by
    simp only [eventEntries, List.forall_mem_cons, FieldValue.value, storeMember_eventId,
      storeMember_userId, storeMember_sku, storeMember_quantity _ hn, implies_true, true_and]
    exact fun e he => absurd he List.not_mem_nil
  -- Two entries store different fields, or the same value.
  have hcomm : ∀ x ∈ eventEntries order eventId, ∀ y ∈ eventEntries order eventId, ∀ event,
      storeEntry (storeEntry event x) y = storeEntry (storeEntry event y) x := by
    simp [eventEntries, storeEntry, FieldValue.value, storeMember_eventId, storeMember_userId,
      storeMember_sku, storeMember_quantity _ hn]
  have hfold : entries.foldl storeEntry {} = orderEvent order eventId := by
    rw [hp.foldl_eq' (fun x hx y hy => hcomm x (hp.subset hx) y (hp.subset hy))]
    simp [eventEntries, storeEntry, FieldValue.value, storeMember_eventId, storeMember_userId,
      storeMember_sku, storeMember_quantity _ hn, orderEvent]
  simp only [entriesDoc, goValue, goMembers_entries, unmarshal,
    storeMembers_entries (fun e he => hstored e (hp.subset he)), hfold]

end entries

/-! ## Publications -/

/-- What the checks of `processCheckout` have established. -/
theorem validate_ok {request : CheckoutRequest} {order : Order}
    (h : request.validate = .ok order) :
    (∃ userId, request.userId = some userId ∧ isCanonicalUuid userId = true ∧
      order.userId = userId.map Char.toLower) ∧
    request.sku = some order.sku ∧ isBlank order.sku = false ∧
    request.quantity = order.quantity := by
  unfold CheckoutRequest.validate at h
  cases hu : parseUserId request.userId with
  | error e =>
    rw [hu] at h
    cases h
  | ok userId =>
    have huser : ∃ u, request.userId = some u ∧ isCanonicalUuid u = true ∧
        userId = u.map Char.toLower := by
      unfold parseUserId at hu
      split at hu
      · cases hu
      · rename_i u hru
        split at hu
        · cases hu
        · split at hu
          · rename_i hc
            cases hu
            exact ⟨u, hru, hc, rfl⟩
          · cases hu
    rw [hu] at h
    simp only [bind, Except.bind] at h
    split at h
    · cases h
    · rename_i sku hs
      split at h
      · cases h
      · rename_i hb
        split at h
        · cases h
          exact ⟨huser, hs, by simpa using hb, rfl⟩
        · cases h

theorem ne_empty_of_not_blank {s : String} (h : isBlank s = false) : s ≠ "" := by
  rintro rfl
  cases h

/-- The payload of the inventory check is what the mapper wrote. -/
theorem prepareEvent_ok {order : Order} {stock : Except String (Option Int)}
    {written : Option String} {payload : String}
    (h : prepareEvent order stock written = .ok payload) : written = some payload := by
  unfold prepareEvent at h
  cases stock with
  | error e => cases h
  | ok stock =>
    simp only [bind, Except.bind, pure, Except.pure, throw, throwThe, MonadExceptOf.throw] at h
    split at h
    · cases h
    · split at h
      · cases h
      · cases h
        rfl

/-- The worker's checks pass for the event of an accepted order. -/
theorem validate_orderEvent {request : CheckoutRequest} {order : Order}
    (h : request.validate = .ok order) (eventId : Uuid) :
    (orderEvent order eventId).validate = none := by
  obtain ⟨⟨userId, -, hc, hu⟩, -, hb, -⟩ := validate_ok h
  have hevent : Uuid.text eventId ≠ "" := (isText_of_canonical (uuidText_canonical eventId)).2.2
  have huser : order.userId ≠ "" := by
    rw [hu]
    exact (isText_of_canonical (canonical_lower hc)).2.2
  have hpos := order.quantity_pos
  simp only [OrderEvent.validate, orderEvent, hevent, huser, ne_empty_of_not_blank hb, if_false,
    Int.not_le.mpr hpos]

/-- PostgreSQL can insert the row of an accepted order. -/
theorem canInsert_orderEvent {request : CheckoutRequest} {order : Order}
    (h : request.validate = .ok order) (eventId : Uuid) :
    canInsert (orderEvent order eventId) = true := by
  obtain ⟨⟨userId, -, hc, hu⟩, -, -, -⟩ := validate_ok h
  obtain ⟨ht, ha, -⟩ := isText_of_canonical (uuidText_canonical eventId)
  have huuid : isUuid order.userId = true := by
    rw [hu]
    exact isUuid_of_canonical (canonical_lower hc)
  simp only [canInsert, orderEvent, ht, ha, huuid, Bool.and_self]

/-- The worker reads every publication of a request with a Java `int` as the event of its order: the
payload is valid JSON, its schema and its values pass, and the row of the order can be inserted. The
event has the SKU and the quantity of the request, and its user id in lower case. `handleEvent` goes
on to its transaction with it. -/
theorem publication_accepted (mapper : ObjectMapper) (request : CheckoutRequest)
    (hint : request.quantity ≤ maxInt4) (p : Publication mapper request) :
    ∃ v event, extractPayload p.fields = .json v ∧ decodeEvent v = .ok event ∧
      event.eventId = Uuid.text p.eventId ∧
      request.userId.map (String.map Char.toLower) = some event.userId ∧
      request.sku = some event.sku ∧ request.quantity = event.quantity ∧
      canInsert event = true ∧
      ∀ w d message reply, message.payload = extractPayload p.fields →
        advance w d message reply .handle = some (w.goto d (.beginTx event), []) := by
  obtain ⟨⟨userId, hru, hc, hu⟩, hsku, hb, hq⟩ := validate_ok p.accepted
  have hdoc := mapper.standard _ _ (prepareEvent_ok p.prepared)
  have hread : read [] p.payload.toList = some (entriesDoc p.entries) := by
    have hblank : Blank [] := fun c hc => absurd hc List.not_mem_nil
    simpa using read_of_denotes [] hblank hdoc hblank
  have hfields : p.fields.lookup "payload" = some p.payload := by
    have hp := p.produced
    unfold streamFields at hp
    split at hp
    · cases hp
    · split at hp
      · cases hp
      · simp only [Except.ok.injEq] at hp
        rw [← hp]
        rfl
  have hpayload : extractPayload p.fields = .json (goValue (entriesDoc p.entries)) := by
    simp only [extractPayload, hfields, hread]
  have hdecode : decodeEvent (goValue (entriesDoc p.entries)) =
      .ok (orderEvent p.order p.eventId) := by
    rw [decodeEvent, unmarshal_entries p.order p.eventId (hq ▸ hint) p.mapOf]
    simp only [validate_orderEvent p.accepted p.eventId]
  refine ⟨_, _, hpayload, hdecode, rfl, ?_, hsku, hq, canInsert_orderEvent p.accepted p.eventId,
    fun w d message reply hm => ?_⟩
  · rw [hru, Option.map_some, ← hu]
    rfl
  · simp only [advance, hm, hpayload, hdecode]

/-! ## A plain mapper -/

/-- The lower hexadecimal digit of a control character. -/
def hexChar (n : Nat) : Char := Nat.digitChar (n % 16)

/-- A character in a JSON string. -/
def writeChar (c : Char) : List Char :=
  if c = '"' ∨ c = '\\' then ['\\', c]
  else if c.toNat < 0x20 then ['\\', 'u', '0', '0', hexChar (c.toNat / 16), hexChar c.toNat]
  else [c]

/-- A string in quotes. -/
def writeString (s : String) : List Char := '"' :: (s.toList.flatMap writeChar ++ ['"'])

/-- A value of the map. -/
def FieldValue.write : FieldValue → List Char
  | .string s => writeString s
  | .integer n => integerText n

/-- The members of the map. -/
def writeMembers : List (String × FieldValue) → List Char
  | [] => []
  | [e] => writeString e.1 ++ ':' :: e.2.write
  | e :: es => writeString e.1 ++ ':' :: (e.2.write ++ ',' :: writeMembers es)

/-- The JSON text of a map, without whitespace. -/
def writeMap (entries : List (String × FieldValue)) : List Char :=
  '{' :: (writeMembers entries ++ ['}'])

theorem chars_write (cs : List Char) : Chars (cs.map Char.toNat) (cs.flatMap writeChar) := by
  induction cs with
  | nil => exact .nil
  | cons c cs ih =>
    rw [List.map_cons, List.flatMap_cons, writeChar]
    split
    · rename_i hq
      rcases hq with rfl | rfl
      · exact .escape '"' '"' rfl ih
      · exact .escape '\\' '\\' rfl ih
    · rename_i hq
      simp only [not_or] at hq
      split
      · rename_i hc
        have hhex : ∀ n < 0x20, hex4 '0' '0' (hexChar (n / 16)) (hexChar n) = some n := by decide
        have hunit : ∀ s, consUnit c.toNat s = c.toNat :: s
          | [] => rfl
          | _ :: _ => if_neg (by omega)
        rw [← hunit]
        exact .unicode _ _ _ _ _ (hhex _ hc) ih
      · exact .plain c (by omega) hq.1 hq.2 ih

theorem chars_codePoints (s : String) : Chars (codePoints s) (s.toList.flatMap writeChar) :=
  chars_write s.toList

/-- The digits of a positive number do not start with a zero. -/
theorem toDigits_head {n : Nat} (h : 0 < n) : ∀ t, Nat.toDigits 10 n ≠ '0' :: t := by
  induction n using Nat.strongRecOn with
  | _ n ih =>
    intro t ht
    by_cases hn : n < 10
    · rw [Nat.toDigits_of_lt_base hn] at ht
      have hd : ∀ m < 10, 0 < m → Nat.digitChar m ≠ '0' := by decide
      exact hd n hn h (List.cons.inj ht).1
    · rw [Nat.toDigits_of_base_le (by decide) (by omega)] at ht
      cases hd : Nat.toDigits 10 (n / 10) with
      | nil => exact Nat.toDigits_ne_nil hd
      | cons c ds =>
        rw [hd, List.cons_append] at ht
        obtain ⟨rfl, -⟩ := List.cons.inj ht
        exact ih (n / 10) (by omega) (by omega) ds hd

theorem isUnsigned_toDigits (n : Nat) : isUnsigned (Nat.toDigits 10 n) = true := by
  have hd := isDigits_toDigits n
  rcases Nat.eq_zero_or_pos n with rfl | hn
  · rfl
  · unfold isUnsigned
    split
    · rename_i t heq
      exact absurd heq (toDigits_head hn t)
    · have hall : ∀ c ∈ Nat.toDigits 10 n, c.isDigit = true := by
        simp only [isDigits, Bool.and_eq_true, List.all_eq_true] at hd
        exact hd.2
      rw [List.takeWhile_eq_self_iff.mpr hall, List.dropWhile_eq_nil_iff.mpr hall, hd]
      rfl

theorem isNumber_integerText (n : Int) : isNumber (integerText n) = true := by
  cases n with
  | ofNat n =>
    have hu := isUnsigned_toDigits n
    unfold isNumber integerText
    simp only
    split
    · rename_i t heq
      have hd := isDigits_toDigits n
      rw [heq] at hd
      exact absurd hd (by simp [isDigits])
    · exact hu
  | negSucc n => exact isUnsigned_toDigits (n + 1)

theorem denotes_write (v : FieldValue) : Denotes (.value v.doc) v.write := by
  cases v with
  | string s => exact .string _ _ (chars_codePoints s)
  | integer n => exact .number _ (isNumber_integerText n)

theorem denotes_members (e : String × FieldValue) (es : List (String × FieldValue)) :
    Denotes (.members ((e :: es).map fun e => (codePoints e.1, e.2.doc)))
      (writeMembers (e :: es)) := by
  have hblank : Blank [] := fun c hc => absurd hc List.not_mem_nil
  induction es generalizing e with
  | nil =>
    simpa [writeMembers, writeString] using Denotes.lastMember _ _ [] _ [] [] _ [] hblank
      (chars_codePoints e.1) hblank hblank (denotes_write e.2) hblank
  | cons e' es ih =>
    simpa [writeMembers, writeString] using Denotes.member _ _ _ [] _ [] [] _ [] _ hblank
      (chars_codePoints e.1) hblank hblank (denotes_write e.2) hblank (ih e')

/-- A mapper that writes every map. -/
def plainMapper : ObjectMapper where
  writeValueAsString entries := some (String.ofList (writeMap entries))
  standard entries text h := by
    cases h
    rw [String.toList_ofList]
    cases entries with
    | nil => exact .emptyObject [] fun c hc => absurd hc List.not_mem_nil
    | cons e es => exact .object _ _ (denotes_members e es)

/-- A request whose SKU needs escapes. -/
def sampleRequest : CheckoutRequest where
  userId := some "0190163D-8694-739B-AEA5-966C26F8AD91"
  sku := some " \"tee\t\\é"
  quantity := 2
  requestId := none

theorem isBlank_writeMap (entries : List (String × FieldValue)) :
    isBlank (String.ofList (writeMap entries)) = false := by
  simp [isBlank, writeMap, show isWhitespace '{' = false by decide]

/-- Every accepted order has a publication. -/
theorem exists_publication {request : CheckoutRequest} {order : Order}
    (h : request.validate = .ok order) (eventId : Uuid) :
    Nonempty (Publication plainMapper request) := by
  obtain ⟨-, -, hb, -⟩ := validate_ok h
  refine ⟨order, h, eventId, eventEntries order eventId, .refl _, .ok (some order.quantity),
    String.ofList (writeMap (eventEntries order eventId)), ?_, "traceparent", "",
    [("traceparent", "traceparent"), ("tracestate", ""),
      ("payload", String.ofList (writeMap (eventEntries order eventId)))], ?_⟩
  · have hs : hasSufficientInventory order (some order.quantity) = true := by
      simp [hasSufficientInventory, hb]
    simp [prepareEvent, hs, plainMapper, bind, Except.bind, pure, Except.pure]
  · simp [streamFields, isBlank_writeMap, show isBlank "traceparent" = false by decide]

/-- The worker accepts a publication of the request. -/
theorem sampleRequest_accepted : ∃ (p : Publication plainMapper sampleRequest) (v : Value)
    (event : OrderEvent), extractPayload p.fields = .json v ∧ decodeEvent v = .ok event ∧
      event.sku = " \"tee\t\\é" ∧ canInsert event = true := by
  have hok : sampleRequest.validate.isOk = true := by decide +kernel
  cases hv : sampleRequest.validate with
  | error e =>
    rw [hv] at hok
    cases hok
  | ok order =>
    obtain ⟨p⟩ := exists_publication hv 7
    obtain ⟨v, event, hx, hd, -, -, hs, -, hc, -⟩ :=
      publication_accepted plainMapper sampleRequest (by decide) p
    exact ⟨p, v, event, hx, hd, (Option.some.inj hs).symm, hc⟩

end Rivulet
end AutoSRE
