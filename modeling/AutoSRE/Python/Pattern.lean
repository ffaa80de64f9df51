import AutoSRE.Lib.Regex
import AutoSRE.Python.Text
import Mathlib.Data.List.Infix

/-!
# Searching with a pattern (`re`)

- **Letters** (`matchesLetter`). What a letter of a pattern matches under `re.IGNORECASE`.
- **Phrases** (`afterPhrase`). A text that starts with the letters of a phrase, and what follows
  (`afterPhrase_iff`).
- **Search** (`searchFirst`). `re.search` takes the match at the first position that has one
  (`searchFirst_iff`).
- **Expressions** (`phrase`, `digits`). The parts of a regular expression under `re.IGNORECASE`, and
  what `\d`, `\s` and `\w` match (`WordTable`).
-/

namespace AutoSRE
namespace Py

/-- `c` matches the ASCII character `letter` of a pattern in lower case, under `re.IGNORECASE`: `i`
has two more cases in Unicode, and `s` and `k` have one. -/
def matchesLetter (letter c : Char) : Bool :=
  c.toLower == letter || (letter == 'i' && (c.toNat == 0x130 || c.toNat == 0x131)) ||
    (letter == 's' && c.toNat == 0x17f) || (letter == 'k' && c.toNat == 0x212a)

/-- What follows a phrase at the start of a text. -/
def afterPhrase : List Char → List Char → Option (List Char)
  | [], cs => some cs
  | _ :: _, [] => none
  | p :: phrase, c :: cs => if matchesLetter p c then afterPhrase phrase cs else none

/-- The letters of the phrase match those of the text, one by one. -/
theorem afterPhrase_iff {phrase cs rest : List Char} :
    afterPhrase phrase cs = some rest ↔
      ∃ found, cs = found ++ rest ∧
        List.Forall₂ (fun p c => matchesLetter p c = true) phrase found := by
  induction phrase generalizing cs with
  | nil =>
    rw [afterPhrase, Option.some.injEq]
    constructor
    · rintro rfl
      exact ⟨[], rfl, .nil⟩
    · rintro ⟨found, rfl, hfound⟩
      cases hfound
      rfl
  | cons p phrase ih =>
    cases cs with
    | nil =>
      simp only [afterPhrase, reduceCtorEq, false_iff]
      rintro ⟨found, hcs, hfound⟩
      cases (List.append_eq_nil_iff.mp hcs.symm).1
      cases hfound
    | cons c cs =>
      rw [afterPhrase]
      constructor
      · intro h
        split at h
        · next hc =>
          obtain ⟨found, rfl, hfound⟩ := ih.mp h
          exact ⟨c :: found, rfl, .cons hc hfound⟩
        · cases h
      · rintro ⟨found, hcs, hfound⟩
        cases hfound with
        | cons hc hfound =>
          obtain ⟨rfl, rfl⟩ := List.cons.inj hcs
          rw [if_pos hc]
          exact ih.mpr ⟨_, rfl, hfound⟩

/-- A run of characters with a property, followed by one without it. -/
theorem takeWhile_run {p : Char → Bool} {run tail : List Char} (hrun : ∀ c ∈ run, p c = true)
    (htail : ∀ c ∈ tail.head?, p c = false) :
    (run ++ tail).takeWhile p = run ∧ (run ++ tail).dropWhile p = tail := by
  rw [List.takeWhile_append_of_pos hrun, List.dropWhile_append_of_pos hrun]
  cases tail with
  | nil => exact ⟨List.append_nil run, rfl⟩
  | cons c tail =>
    have hc : p c = false := htail c rfl
    simp [hc]

/-- `re.search`, for a pattern by its match at the start of a text. -/
def searchFirst {β : Type} (matchAt : List Char → Option β) : List Char → Option β
  | [] => matchAt []
  | c :: cs => (matchAt (c :: cs)).or (searchFirst matchAt cs)

/-- The match found is that of the longest suffix that has one. -/
theorem searchFirst_iff {β : Type} {matchAt : List Char → Option β} {text : List Char} {b : β} :
    searchFirst matchAt text = some b ↔
      ∃ rest, rest <:+ text ∧ matchAt rest = some b ∧
        ∀ earlier, earlier <:+ text → rest.length < earlier.length → matchAt earlier = none := by
  induction text with
  | nil =>
    rw [searchFirst]
    constructor
    · intro h
      exact ⟨[], List.suffix_refl [], h, fun _ he hlt => absurd he.length_le (Nat.not_le.mpr hlt)⟩
    · rintro ⟨rest, hrest, h, -⟩
      rwa [List.suffix_nil.mp hrest] at h
  | cons c cs ih =>
    rw [searchFirst, Option.or_eq_some_iff, ih]
    constructor
    · rintro (h | ⟨hnone, rest, hrest, h, hfirst⟩)
      · refine ⟨c :: cs, List.suffix_refl _, h, fun earlier he hlt => ?_⟩
        exact absurd he.length_le (Nat.not_le.mpr hlt)
      · refine ⟨rest, hrest.trans (List.suffix_cons c cs), h, fun earlier he hlt => ?_⟩
        rcases List.suffix_cons_iff.mp he with rfl | he
        · exact hnone
        · exact hfirst earlier he hlt
    · rintro ⟨rest, hrest, h, hfirst⟩
      rcases List.suffix_cons_iff.mp hrest with rfl | hrest
      · exact .inl h
      · have hlt : rest.length < (c :: cs).length := Nat.lt_succ_of_le hrest.length_le
        refine .inr ⟨hfirst _ (List.suffix_refl _) hlt, rest, hrest, h, fun earlier he => ?_⟩
        exact hfirst earlier (he.trans (List.suffix_cons c cs))

/-! ## Regular expressions -/

/-- What `\w` matches: letters, the digits of every script, and the underscore. -/
structure WordTable where
  isWord : Char → Bool
  ascii : ∀ c, c.toNat < 128 → isWord c = (c.isAlphanum || c == '_')
  digit : ∀ c, (decimalValue c).isSome = true → isWord c = true

/-- What `\d` matches. -/
def isDecimal (c : Char) : Bool := (decimalValue c).isSome

/-- A text, letter by letter, in any case. -/
def phrase (text : String) : Lib.Regex :=
  .seqs (text.toList.map fun c => .char (matchesLetter c.toLower))

/-- A character of a pattern that is no letter has one case. -/
theorem matchesLetter_symbol {letter c : Char} (h : letter.toNat < 65) :
    matchesLetter letter c = true ↔ c = letter := by
  have hupper : ∀ n < 91, 65 ≤ n → 65 ≤ (Char.ofNat n).toLower.toNat := by decide
  have hi : letter ≠ 'i' ∧ letter ≠ 's' ∧ letter ≠ 'k' := by
    refine ⟨?_, ?_, ?_⟩ <;> rintro rfl <;> revert h <;> decide
  simp only [matchesLetter, Bool.or_eq_true, Bool.and_eq_true, beq_iff_eq, hi.1, hi.2.1, hi.2.2,
    false_and, or_false]
  by_cases hc : 65 ≤ c.toNat ∧ c.toNat ≤ 90
  · have hlower := hupper c.toNat (by omega) hc.1
    rw [Char.ofNat_toNat] at hlower
    refine iff_of_false ?_ ?_ <;> rintro rfl <;> omega
  · rw [show c.toLower = c from dif_neg hc]

theorem way_symbol_iff {letter : Char} (h : letter.toNat < 65) {s s' : Lib.Regex.Cursor} :
    Lib.Regex.Way (.seqs [.char (matchesLetter letter)]) s s' ↔
      ∃ rest, s.rest = letter :: rest ∧ s' = s.over [letter] rest := by
  simp only [Lib.Regex.way_seqs_cons, Lib.Regex.way_seqs_nil, Lib.Regex.way_char_iff,
    matchesLetter_symbol h]
  constructor
  · rintro ⟨s₁, ⟨c, cs, hrest, rfl, rfl⟩, rfl⟩
    exact ⟨cs, hrest, rfl⟩
  · rintro ⟨rest, hrest, rfl⟩
    exact ⟨_, ⟨letter, rest, hrest, rfl, rfl⟩, rfl⟩

/-- A text whose last letter may be missing. -/
def plural (text : String) (last : String) : Lib.Regex := .seq (phrase text) (.opt (phrase last))

/-- The words of ASCII, and the digits. -/
def asciiTable : WordTable where
  isWord c := c.isAlphanum || c == '_' || isDecimal c
  ascii c hc := by
    have hall : ∀ n < 128, isDecimal (Char.ofNat n) = true →
        (Char.ofNat n).isAlphanum = true := by decide +kernel
    have h := hall c.toNat hc
    rw [Char.ofNat_toNat] at h
    cases hd : isDecimal c with
    | false => simp
    | true => simp [h hd]
  digit c hc := by simp [isDecimal, hc]

end Py
end AutoSRE
