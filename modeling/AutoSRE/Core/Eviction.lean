import AutoSRE.Core.Summarize

/-!
# The eviction of tool results (`core/context.py`)

- **The summary** (`fitSummary`). A text is cut to the limit of characters; if it has too many
  tokens, it is cut to fewer and fewer tokens with a suffix, and to the limit of characters again.
- **Both limits** (`fitSummary_fits`). The summary is within them when the placeholder is, if the
  text is blank, the mark is, if no token fits beside it, and the last cut cuts nothing or the
  tokeniser needs no more tokens for the beginning of a text than for the text.
-/

namespace AutoSRE
namespace Core

open Py

/-- A tokeniser that can be undone. -/
structure Encoder where
  Token : Type
  encode : List Char → List Token
  decode : List Token → List Char
  decode_encode : ∀ text, decode (encode text) = text

/-- `ContextEviction`, with what its constructor checks, and the table of word characters that its
expressions use. -/
structure ContextEviction where
  maxResultChars : Nat
  maxContextChars : Nat
  maxResultTokens : Nat
  encoder : Encoder
  words : WordTable
  maxResultChars_pos : 0 < maxResultChars
  maxContextChars_pos : 0 < maxContextChars
  maxResultTokens_pos : 0 < maxResultTokens

namespace ContextEviction

variable (ev : ContextEviction)

/-! ## The summary -/

/-- `count_tokens`. -/
def countTokens (text : List Char) : Nat := (ev.encoder.encode text).length

/-- The text that stands for a blank summary. -/
def notAvailable : List Char := "[tool] no summary available".toList

/-- The mark of a summary that is cut. -/
def truncated : List Char := "\n[summary truncated]".toList

/-- The summary, cut to the limit of characters. -/
def limited (text : List Char) : List Char :=
  if ev.maxResultChars < text.length then Extraction.rstrip (text.take ev.maxResultChars) else text

/-- The text of the first `k` tokens, with the mark. -/
def candidate (ids : List ev.encoder.Token) (k : Nat) : List Char :=
  Extraction.rstrip (ev.encoder.decode (ids.take k)) ++ truncated

/-- The loop that drops the last token, from `k` tokens on. -/
def shrink (ids : List ev.encoder.Token) : Nat → List Char
  | 0 => ev.candidate ids 0
  | k + 1 =>
    if ev.maxResultTokens < ev.countTokens (ev.candidate ids (k + 1)) then shrink ids k
    else ev.candidate ids (k + 1)

/-- The tokens that are left beside those of the mark. -/
def budget : Nat := max 1 (ev.maxResultTokens - ev.countTokens truncated)

/-- The last cut. -/
def finalCut (text : List Char) : List Char := Extraction.rstrip (text.take ev.maxResultChars)

/-- `_fit_summary`. -/
def fitSummary (summary : List Char) : List Char :=
  let text := stripChars summary
  if text = [] then notAvailable
  else
    let text := ev.limited text
    if ev.countTokens text ≤ ev.maxResultTokens then text
    else
      let ids := (ev.encoder.encode text).take ev.budget
      ev.finalCut (ev.shrink ids ids.length)

/-! ## Both limits -/

/-- The text is within the limit of tokens. -/
def Fits (text : List Char) : Prop := ev.countTokens text ≤ ev.maxResultTokens

/-- `k` is the greatest number of tokens, up to `n`, with which the shortened text fits; zero if
there is none. -/
structure Longest (ids : List ev.encoder.Token) (n k : Nat) : Prop where
  le : k ≤ n
  fits : k = 0 ∨ ev.Fits (ev.candidate ids k)
  longer : ∀ j, k < j → j ≤ n → ¬ ev.Fits (ev.candidate ids j)

/-- The placeholder is within both limits. -/
def PlaceholderFits : Prop :=
  notAvailable.length ≤ ev.maxResultChars ∧ ev.Fits notAvailable

/-- The tokens of the text, which is not blank, when they are too many. -/
def Shortened (summary : List Char) (ids : List ev.encoder.Token) : Prop :=
  stripChars summary ≠ [] ∧ ids = ev.encoder.encode (ev.limited (stripChars summary)) ∧
    ev.maxResultTokens < ids.length

/-- The tokeniser needs no more tokens for the stripped beginning of a text than for the text. -/
def Frugal : Prop :=
  ∀ text n, ev.countTokens (Extraction.rstrip (text.take n)) ≤ ev.countTokens text

/-- The mark, after no token. -/
def mark : List Char := Extraction.rstrip (ev.encoder.decode []) ++ truncated

/-- The last cut has something to cut: the longest text that fits beside the mark is over the limit
of characters with it. -/
def Overlong (summary : List Char) : Prop :=
  ∃ ids k, ev.Shortened summary ids ∧ ev.Longest ids ev.budget k ∧
    ev.maxResultChars < (ev.candidate ids k).length

/-- What the text and the tokeniser must be for the summary to be within both limits. -/
structure Fitting (summary : List Char) : Prop where
  /-- The placeholder fits, if it is used. -/
  blank : stripChars summary = [] → ev.PlaceholderFits
  /-- The mark fits, if no token of the text does beside it. -/
  mark : ∀ ids, ev.Shortened summary ids → ev.Longest ids ev.budget 0 → ev.Fits ev.mark
  /-- The last cut cuts nothing, or adds no token. -/
  cut : ¬ ev.Overlong summary ∨ ev.Frugal

theorem rstrip_length_le (text : List Char) : (Extraction.rstrip text).length ≤ text.length := by
  rw [Extraction.rstrip, List.length_reverse]
  exact (List.length_dropWhile_le _ _).trans_eq List.length_reverse

theorem finalCut_length_le (text : List Char) : (ev.finalCut text).length ≤ ev.maxResultChars :=
  (rstrip_length_le _).trans (List.length_take_le _ _)

theorem limited_length_le (text : List Char) : (ev.limited text).length ≤ ev.maxResultChars := by
  unfold limited
  split
  · exact (rstrip_length_le _).trans (List.length_take_le _ _)
  · next h => exact Nat.le_of_not_lt h

variable {ev}

/-- The loop ends with the longest shortened text that fits. -/
theorem shrink_longest (ids : List ev.encoder.Token) (n : Nat) :
    ∃ k, ev.Longest ids n k ∧ ev.shrink ids n = ev.candidate ids k := by
  induction n with
  | zero => exact ⟨0, ⟨Nat.le_refl 0, .inl rfl, fun j hj hn => absurd hj (by omega)⟩, rfl⟩
  | succ n ih =>
    by_cases h : ev.maxResultTokens < ev.countTokens (ev.candidate ids (n + 1))
    · obtain ⟨k, hk, hshrink⟩ := ih
      refine ⟨k, ⟨Nat.le_succ_of_le hk.le, hk.fits, fun j hkj hj => ?_⟩, ?_⟩
      · rcases Nat.lt_or_eq_of_le hj with hj | rfl
        · exact hk.longer j hkj (Nat.le_of_lt_succ hj)
        · exact Nat.not_le.mpr h
      · rw [shrink, if_pos h, hshrink]
    · refine ⟨n + 1, ⟨Nat.le_refl _, .inr (Nat.le_of_not_lt h), fun j hkj hj => ?_⟩, ?_⟩
      · omega
      · rw [shrink, if_neg h]

theorem Longest.unique {ids : List ev.encoder.Token} {n k k' : Nat} (h : ev.Longest ids n k)
    (h' : ev.Longest ids n k') : k = k' := by
  rcases Nat.lt_trichotomy k k' with hlt | heq | hlt
  · exact absurd (h'.fits.resolve_left (by omega)) (h.longer k' hlt h'.le)
  · exact heq
  · exact absurd (h.fits.resolve_left (by omega)) (h'.longer k hlt h.le)

/-- The budget does not reach the end of a text that has too many tokens. -/
theorem budget_le {ids : List ev.encoder.Token} (h : ev.maxResultTokens < ids.length) :
    ev.budget ≤ ids.length := by
  have hpos := ev.maxResultTokens_pos
  unfold budget
  omega

theorem candidate_take (ids : List ev.encoder.Token) {n k : Nat} (h : k ≤ n) :
    ev.candidate (ids.take n) k = ev.candidate ids k := by
  rw [candidate, candidate, List.take_take, Nat.min_eq_left h]

theorem longest_take {ids : List ev.encoder.Token} {n k : Nat} :
    ev.Longest (ids.take n) n k ↔ ev.Longest ids n k := by
  constructor
  · rintro ⟨hle, hfits, hlonger⟩
    rw [candidate_take ids hle] at hfits
    exact ⟨hle, hfits, fun j hkj hj => candidate_take ids hj ▸ hlonger j hkj hj⟩
  · rintro ⟨hle, hfits, hlonger⟩
    refine ⟨hle, ?_, fun j hkj hj => (candidate_take ids hj).symm ▸ hlonger j hkj hj⟩
    rwa [candidate_take ids hle]

theorem rstrip_candidate (ids : List ev.encoder.Token) (k : Nat) :
    Extraction.rstrip (ev.candidate ids k) = ev.candidate ids k := by
  have hlast : Extraction.rstrip truncated = truncated := by decide
  have htext (text : List Char) : Extraction.rstrip (text ++ truncated) = text ++ truncated := by
    have hmark : truncated = '\n' :: '[' :: truncated.drop 2 := rfl
    rw [hmark, List.append_cons, Extraction.rstrip_append (by decide)]
    rfl
  exact htext _

/-- The last cut leaves a text that is within the limit of characters. -/
theorem finalCut_candidate (ids : List ev.encoder.Token) {k : Nat}
    (h : (ev.candidate ids k).length ≤ ev.maxResultChars) :
    ev.finalCut (ev.candidate ids k) = ev.candidate ids k := by
  rw [finalCut, List.take_of_length_le h, rstrip_candidate]

/-- The summary of a text that is not blank and has too many tokens. -/
theorem fitSummary_shortened {summary : List Char} {ids : List ev.encoder.Token}
    (h : ev.Shortened summary ids) :
    ∃ k, ev.Longest ids ev.budget k ∧
      ev.fitSummary summary = ev.finalCut (ev.candidate ids k) := by
  obtain ⟨hblank, rfl, hmany⟩ := h
  obtain ⟨k, hk, hshrink⟩ := shrink_longest
    ((ev.encoder.encode (ev.limited (stripChars summary))).take ev.budget) ev.budget
  refine ⟨k, longest_take.mp hk, ?_⟩
  have hids : ((ev.encoder.encode (ev.limited (stripChars summary))).take ev.budget).length =
      ev.budget := List.length_take_of_le (budget_le hmany)
  have hcount : ¬ ev.countTokens (ev.limited (stripChars summary)) ≤ ev.maxResultTokens :=
    Nat.not_le.mpr hmany
  simp only [fitSummary, if_neg hblank, if_neg hcount]
  rw [hids, hshrink, candidate_take _ hk.le]

/-- The longest shortened text fits, when the mark does. -/
theorem Longest.fits_of_mark {ids : List ev.encoder.Token} {n k : Nat} (hk : ev.Longest ids n k)
    (hmark : k = 0 → ev.Fits ev.mark) : ev.Fits (ev.candidate ids k) := by
  rcases hk.fits with rfl | hfits
  · exact hmark rfl
  · exact hfits

/-- The summary is within both limits if: a blank text has a placeholder that is; the mark is, where
no token of the text fits beside it; and the last cut cuts nothing, or adds no token. It is within
them in no other case, but where the last cut cuts. -/
theorem fitSummary_fits (ev : ContextEviction) (summary : List Char) :
    (ev.Fitting summary → (ev.fitSummary summary).length ≤ ev.maxResultChars ∧
      ev.countTokens (ev.fitSummary summary) ≤ ev.maxResultTokens) ∧
    ((ev.fitSummary summary).length ≤ ev.maxResultChars ∧
        ev.countTokens (ev.fitSummary summary) ≤ ev.maxResultTokens →
      ev.Fitting summary ∨ ev.Overlong summary) := by
  by_cases hblank : stripChars summary = []
  · have hresult : ev.fitSummary summary = notAvailable := if_pos hblank
    rw [hresult]
    refine ⟨fun h => h.blank hblank, fun h => .inl ⟨fun _ => h, fun _ hs => absurd hblank hs.1,
      .inl ?_⟩⟩
    rintro ⟨_, _, hs, -⟩
    exact hs.1 hblank
  by_cases hmany : ev.maxResultTokens < ev.countTokens (ev.limited (stripChars summary))
  · have hshort : ev.Shortened summary (ev.encoder.encode (ev.limited (stripChars summary))) :=
      ⟨hblank, rfl, hmany⟩
    obtain ⟨k, hk, hresult⟩ := fitSummary_shortened hshort
    rw [hresult]
    refine ⟨fun h => ⟨ev.finalCut_length_le _, ?_⟩, fun ⟨_, h⟩ => ?_⟩
    · have hfits : ev.Fits (ev.candidate _ k) := hk.fits_of_mark fun h0 => h.mark _ hshort (h0 ▸ hk)
      rcases h.cut with hcut | hfrugal
      · have hlength := Nat.le_of_not_lt fun hlt => hcut ⟨_, k, hshort, hk, hlt⟩
        rwa [finalCut_candidate _ hlength]
      · exact (hfrugal _ _).trans hfits
    · by_cases hlong : ev.Overlong summary
      · exact .inr hlong
      · refine .inl ⟨fun h => absurd h hblank, ?_, .inl hlong⟩
        rintro ids ⟨-, rfl, -⟩ h0
        obtain rfl := h0.unique hk
        have hlength := Nat.le_of_not_lt fun hlt => hlong ⟨_, 0, hshort, hk, hlt⟩
        rwa [finalCut_candidate _ hlength] at h
  · have hresult : ev.fitSummary summary = ev.limited (stripChars summary) := by
      rw [fitSummary, if_neg hblank]
      exact if_pos (Nat.le_of_not_lt hmany)
    rw [hresult]
    refine ⟨fun _ => ⟨ev.limited_length_le _, Nat.le_of_not_lt hmany⟩,
      fun _ => .inl ⟨fun h => absurd h hblank, ?_, .inl ?_⟩⟩
    · rintro ids ⟨-, rfl, h⟩
      exact absurd h hmany
    · rintro ⟨ids, k, ⟨-, rfl, h⟩, -⟩
      exact hmany h

/-- The summary of a text that is not blank is within the limit of characters. -/
theorem fitSummary_length_le {summary : List Char} (h : stripChars summary ≠ []) :
    (ev.fitSummary summary).length ≤ ev.maxResultChars := by
  by_cases hmany : ev.countTokens (ev.limited (stripChars summary)) ≤ ev.maxResultTokens
  · simp only [fitSummary, if_neg h, if_pos hmany]
    exact ev.limited_length_le _
  · simp only [fitSummary, if_neg h, if_neg hmany]
    exact ev.finalCut_length_le _

/-- The tokeniser whose tokens are the characters. -/
def charEncoder : Encoder := ⟨Char, id, id, fun _ => rfl⟩

/-- A limit of three tokens. -/
def threeTokens : ContextEviction where
  maxResultChars := 2000
  maxContextChars := 50000
  maxResultTokens := 3
  encoder := charEncoder
  words := asciiTable
  maxResultChars_pos := by decide
  maxContextChars_pos := by decide
  maxResultTokens_pos := by decide

/-- The mark alone has more tokens than the limit. -/
theorem mark_over_limit :
    ¬ ((threeTokens.fitSummary "failed".toList).length ≤ threeTokens.maxResultChars ∧
      threeTokens.countTokens (threeTokens.fitSummary "failed".toList) ≤
        threeTokens.maxResultTokens) := by decide

end ContextEviction
end Core
end AutoSRE
