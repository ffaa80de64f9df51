/-!
# Backtracking search

Regular expressions with groups and word boundaries, as a backtracking matcher reads them: the first
alternative before the second one, and a repetition as long as it can be.

* `run`: the first way to match at a position that its continuation accepts.
* `Way`: the ways to match, in no order. The matcher takes one of them, and finds one if there is
  one that is accepted (`run_some`, `run_isSome`).
* `search`, `findAll`: the first position with a match, and all matches from left to right. A search
  finds something exactly if some position has a match (`search_isSome_iff`).
-/

namespace AutoSRE
namespace Lib

/-- A regular expression. -/
inductive Regex where
  | empty
  /-- One character. -/
  | char (p : Char → Bool)
  | seq (a b : Regex)
  /-- The first one is tried first. -/
  | alt (a b : Regex)
  /-- Any number of characters, as many as possible. -/
  | star (p : Char → Bool)
  /-- A position between a word character and another one, or none. -/
  | boundary (word : Char → Bool)
  /-- A group, by its number. -/
  | group (i : Nat) (a : Regex)

namespace Regex

/-- `a?`. -/
def opt (a : Regex) : Regex := .alt a .empty

/-- `p+`. -/
def plus (p : Char → Bool) : Regex := .seq (.char p) (.star p)

/-- The expressions one after the other. -/
def seqs : List Regex → Regex
  | [] => .empty
  | a :: as => .seq a (seqs as)

/-- One of the expressions, the first ones first. -/
def alts : List Regex → Regex
  | [] => .char fun _ => false
  | [a] => a
  | a :: as => .alt a (alts as)

/-- The expression has the group. -/
def hasGroup (i : Nat) : Regex → Bool
  | .seq a b | .alt a b => hasGroup i a || hasGroup i b
  | .group j a => j == i || hasGroup i a
  | _ => false

/-- A position in a text, with the texts of the groups that are closed. -/
structure Cursor where
  /-- The characters before the position, the last one first. -/
  before : List Char
  rest : List Char
  groups : List (Nat × List Char)

/-- The position after the next characters. -/
def Cursor.over (s : Cursor) (u rest : List Char) : Cursor :=
  { s with before := u.reverse ++ s.before, rest }

/-- The text from one position to a later one. -/
def Cursor.since (s' s : Cursor) : List Char :=
  (s'.before.take (s'.before.length - s.before.length)).reverse

/-- The group is closed: its text starts at `s`. -/
def Cursor.close (s' : Cursor) (i : Nat) (s : Cursor) : Cursor :=
  { s' with groups := (i, s'.since s) :: s'.groups }

/-- The position is at the edge of a word. -/
def Cursor.atBoundary (s : Cursor) (word : Char → Bool) : Bool :=
  s.before.head?.any word != s.rest.head?.any word

/-- The text of a group. -/
def Cursor.group? (s : Cursor) (i : Nat) : Option (List Char) := s.groups.lookup i

/-! ## The matcher -/

section run

variable {β : Type}

/-- The longest repetition that the continuation accepts. -/
def runStar (p : Char → Bool) (groups : List (Nat × List Char)) (k : Cursor → Option β) :
    List Char → List Char → Option β
  | before, [] => k ⟨before, [], groups⟩
  | before, c :: cs =>
    if p c then (runStar p groups k (c :: before) cs).or (k ⟨before, c :: cs, groups⟩)
    else k ⟨before, c :: cs, groups⟩

/-- The first way to match that the continuation accepts. -/
def run : Regex → Cursor → (Cursor → Option β) → Option β
  | .empty, s, k => k s
  | .char p, s, k =>
    match s.rest with
    | [] => none
    | c :: cs => if p c then k (s.over [c] cs) else none
  | .seq a b, s, k => run a s fun s' => run b s' k
  | .alt a b, s, k => (run a s k).or (run b s k)
  | .star p, s, k => runStar p s.groups k s.before s.rest
  | .boundary word, s, k => if s.atBoundary word then k s else none
  | .group i a, s, k => run a s fun s' => k (s'.close i s)

end run

/-- A match at a position: where it ends. -/
def matchAt (r : Regex) (s : Cursor) : Option Cursor := run r s some

/-- The first position from `before` on that has a match, with its end. -/
def searchFrom (r : Regex) : List Char → List Char → Option Cursor
  | before, [] => r.matchAt ⟨before, [], []⟩
  | before, c :: cs => (r.matchAt ⟨before, c :: cs, []⟩).or (searchFrom r (c :: before) cs)

/-- `re.search`: the end of the first match. -/
def search (r : Regex) (text : List Char) : Option Cursor := r.searchFrom [] text

/-- The matches from a position on, none of which is empty; the first argument bounds their
number. -/
def findAllFrom (r : Regex) : Nat → List Char → List Char → List Cursor
  | 0, _, _ => []
  | n + 1, before, rest =>
    match r.searchFrom before rest with
    | none => []
    | some s => s :: findAllFrom r n s.before s.rest

/-- `re.findall`, for an expression that no empty text matches. -/
def findAll (r : Regex) (text : List Char) : List Cursor :=
  r.findAllFrom (text.length + 1) [] text

/-! ## The ways to match -/

/-- The expression can match from one position to another. -/
inductive Way : Regex → Cursor → Cursor → Prop
  | empty {s : Cursor} : Way .empty s s
  | char {p : Char → Bool} {s : Cursor} {c : Char} {cs : List Char} : s.rest = c :: cs →
      p c = true → Way (.char p) s (s.over [c] cs)
  | seq {a b : Regex} {s s₁ s₂ : Cursor} : Way a s s₁ → Way b s₁ s₂ → Way (.seq a b) s s₂
  | left {a b : Regex} {s s' : Cursor} : Way a s s' → Way (.alt a b) s s'
  | right {a b : Regex} {s s' : Cursor} : Way b s s' → Way (.alt a b) s s'
  | star {p : Char → Bool} {s : Cursor} {u rest : List Char} : s.rest = u ++ rest →
      (∀ c ∈ u, p c = true) → Way (.star p) s (s.over u rest)
  | boundary {word : Char → Bool} {s : Cursor} : s.atBoundary word = true →
      Way (.boundary word) s s
  | group {i : Nat} {a : Regex} {s s' : Cursor} : Way a s s' → Way (.group i a) s (s'.close i s)

section kinds

variable {a b : Regex} {p word : Char → Bool} {i : Nat} {s s' : Cursor}

@[simp] theorem way_empty_iff : Way .empty s s' ↔ s' = s :=
  ⟨fun h => by cases h; rfl, fun h => h ▸ .empty⟩

@[simp] theorem way_seq_iff : Way (.seq a b) s s' ↔ ∃ s₁, Way a s s₁ ∧ Way b s₁ s' :=
  ⟨fun h => by cases h with | seq ha hb => exact ⟨_, ha, hb⟩, fun ⟨_, ha, hb⟩ => .seq ha hb⟩

@[simp] theorem way_alt_iff : Way (.alt a b) s s' ↔ Way a s s' ∨ Way b s s' := by
  constructor
  · intro h
    cases h with
    | left h => exact .inl h
    | right h => exact .inr h
  · rintro (h | h)
    · exact .left h
    · exact .right h

@[simp] theorem way_opt_iff : Way a.opt s s' ↔ Way a s s' ∨ s' = s := by
  rw [opt, way_alt_iff, way_empty_iff]

@[simp] theorem way_seqs_cons {as : List Regex} :
    Way (.seqs (a :: as)) s s' ↔ ∃ s₁, Way a s s₁ ∧ Way (.seqs as) s₁ s' := way_seq_iff

@[simp] theorem way_seqs_nil : Way (.seqs []) s s' ↔ s' = s := way_empty_iff

theorem way_char_iff :
    Way (.char p) s s' ↔ ∃ c cs, s.rest = c :: cs ∧ p c = true ∧ s' = s.over [c] cs := by
  constructor
  · intro h
    cases h with
    | char hrest hp => exact ⟨_, _, hrest, hp, rfl⟩
  · rintro ⟨c, cs, hrest, hp, rfl⟩
    exact .char hrest hp

theorem way_star_iff :
    Way (.star p) s s' ↔ ∃ u rest, s.rest = u ++ rest ∧ (∀ c ∈ u, p c = true) ∧
      s' = s.over u rest := by
  constructor
  · intro h
    cases h with
    | star hrest hu => exact ⟨_, _, hrest, hu, rfl⟩
  · rintro ⟨u, rest, hrest, hu, rfl⟩
    exact .star hrest hu

/-- One character or more. -/
theorem way_plus_iff :
    Way (.plus p) s s' ↔ ∃ u rest, s.rest = u ++ rest ∧ u ≠ [] ∧ (∀ c ∈ u, p c = true) ∧
      s' = s.over u rest := by
  rw [plus, way_seq_iff]
  constructor
  · rintro ⟨s₁, hc, hs⟩
    obtain ⟨c, cs, hrest, hp, rfl⟩ := way_char_iff.mp hc
    obtain ⟨u, rest, hrest', hu, rfl⟩ := way_star_iff.mp hs
    obtain rfl : cs = u ++ rest := hrest'
    refine ⟨c :: u, rest, hrest, List.cons_ne_nil c u, ?_, by simp [Cursor.over]⟩
    simpa [hp] using hu
  · rintro ⟨u, rest, hrest, hne, hu, rfl⟩
    obtain ⟨c, u, rfl⟩ := List.exists_cons_of_ne_nil hne
    refine ⟨s.over [c] (u ++ rest), .char hrest (hu c List.mem_cons_self), ?_⟩
    exact way_star_iff.mpr ⟨u, rest, rfl, fun c' hc' => hu c' (List.mem_cons_of_mem c hc'),
      by simp [Cursor.over]⟩

@[simp] theorem way_boundary_iff :
    Way (.boundary word) s s' ↔ s.atBoundary word = true ∧ s' = s := by
  constructor
  · intro h
    cases h with
    | boundary hb => exact ⟨hb, rfl⟩
  · rintro ⟨hb, rfl⟩
    exact .boundary hb

@[simp] theorem way_group_iff : Way (.group i a) s s' ↔ ∃ s₁, Way a s s₁ ∧ s' = s₁.close i s := by
  constructor
  · intro h
    cases h with
    | group h => exact ⟨_, h, rfl⟩
  · rintro ⟨s₁, h, rfl⟩
    exact .group h

end kinds

section ways

variable {β : Type} {r : Regex} {s : Cursor} {k : Cursor → Option β}

theorem runStar_some {p : Char → Bool} {groups : List (Nat × List Char)} {b : β} :
    ∀ {rest before : List Char}, runStar p groups k before rest = some b →
      ∃ u rest', rest = u ++ rest' ∧ (∀ c ∈ u, p c = true) ∧
        k ⟨u.reverse ++ before, rest', groups⟩ = some b
  | [], _, h => ⟨[], [], rfl, by simp, h⟩
  | c :: cs, before, h => by
    have hstop : k ⟨before, c :: cs, groups⟩ = some b → ∃ u rest', c :: cs = u ++ rest' ∧
        (∀ c ∈ u, p c = true) ∧ k ⟨u.reverse ++ before, rest', groups⟩ = some b :=
      fun hk => ⟨[], c :: cs, rfl, by simp, hk⟩
    rw [runStar] at h
    split at h
    · rename_i hp
      rcases Option.or_eq_some_iff.mp h with h | ⟨-, h⟩
      · obtain ⟨u, rest', rfl, hu, hk⟩ := runStar_some h
        refine ⟨c :: u, rest', rfl, ?_, by simpa using hk⟩
        simpa [hp] using hu
      · exact hstop h
    · exact hstop h

theorem runStar_isSome {p : Char → Bool} {groups : List (Nat × List Char)} :
    ∀ {u before rest : List Char}, (∀ c ∈ u, p c = true) →
      (k ⟨u.reverse ++ before, rest, groups⟩).isSome = true →
      (runStar p groups k before (u ++ rest)).isSome = true
  | [], before, rest, _, h => by
    have h : (k ⟨before, rest, groups⟩).isSome = true := h
    cases rest with
    | nil => exact h
    | cons c cs =>
      rw [List.nil_append, runStar]
      split
      · rw [Option.isSome_or, h, Bool.or_true]
      · exact h
  | c :: u, before, rest, hu, h => by
    rw [List.cons_append, runStar, if_pos (hu c List.mem_cons_self), Option.isSome_or,
      runStar_isSome (fun c' hc' => hu c' (List.mem_cons_of_mem c hc')) (by simpa using h),
      Bool.true_or]

/-- What the matcher finds is a way to match that is accepted. -/
theorem run_some {b : β} (h : run r s k = some b) : ∃ s', Way r s s' ∧ k s' = some b := by
  induction r generalizing s k with
  | empty => exact ⟨s, .empty, h⟩
  | char p =>
    rw [run] at h
    split at h
    · cases h
    · rename_i c cs hrest
      split at h
      · rename_i hp
        exact ⟨_, .char hrest hp, h⟩
      · cases h
  | seq a b iha ihb =>
    obtain ⟨s₁, h₁, h⟩ := iha h
    obtain ⟨s₂, h₂, h⟩ := ihb h
    exact ⟨s₂, .seq h₁ h₂, h⟩
  | alt a b iha ihb =>
    rcases Option.or_eq_some_iff.mp h with h | ⟨-, h⟩
    · obtain ⟨s', hw, h⟩ := iha h
      exact ⟨s', .left hw, h⟩
    · obtain ⟨s', hw, h⟩ := ihb h
      exact ⟨s', .right hw, h⟩
  | star p =>
    obtain ⟨u, rest, hrest, hu, h⟩ := runStar_some h
    exact ⟨_, .star hrest hu, h⟩
  | boundary word =>
    rw [run] at h
    split at h
    · rename_i hb
      exact ⟨s, .boundary hb, h⟩
    · cases h
  | group i a iha =>
    obtain ⟨s', hw, h⟩ := iha h
    exact ⟨_, .group hw, h⟩

/-- The matcher finds a way to match, if there is one that is accepted. -/
theorem run_isSome {s' : Cursor} (hw : Way r s s') (h : (k s').isSome = true) :
    (run r s k).isSome = true := by
  induction hw generalizing k with
  | empty => exact h
  | char hrest hp =>
    rw [run, hrest]
    simpa [hp] using h
  | seq _ _ iha ihb => exact iha (ihb h)
  | left _ ih => rw [run, Option.isSome_or, ih h, Bool.true_or]
  | right _ ih => rw [run, Option.isSome_or, ih h, Bool.or_true]
  | star hrest hu =>
    rw [run, hrest]
    exact runStar_isSome hu h
  | boundary hb => rwa [run, if_pos hb]
  | group _ ih => exact ih h

theorem matchAt_isSome_iff : (r.matchAt s).isSome = true ↔ ∃ s', Way r s s' := by
  rw [Option.isSome_iff_exists]
  constructor
  · rintro ⟨s', h⟩
    obtain ⟨s₁, hw, -⟩ := run_some h
    exact ⟨s₁, hw⟩
  · rintro ⟨s', hw⟩
    exact Option.isSome_iff_exists.mp (run_isSome hw rfl)

theorem searchFrom_isSome_iff {before rest : List Char} :
    (r.searchFrom before rest).isSome = true ↔ ∃ u v s', rest = u ++ v ∧
      Way r ⟨u.reverse ++ before, v, []⟩ s' := by
  induction rest generalizing before with
  | nil =>
    rw [searchFrom, matchAt_isSome_iff]
    constructor
    · rintro ⟨s', hw⟩
      exact ⟨[], [], s', rfl, hw⟩
    · rintro ⟨u, v, s', huv, hw⟩
      obtain ⟨rfl, rfl⟩ := List.append_eq_nil_iff.mp huv.symm
      exact ⟨s', hw⟩
  | cons c cs ih =>
    rw [searchFrom, Option.isSome_or, Bool.or_eq_true, matchAt_isSome_iff, ih]
    constructor
    · rintro (⟨s', hw⟩ | ⟨u, v, s', rfl, hw⟩)
      · exact ⟨[], c :: cs, s', rfl, hw⟩
      · exact ⟨c :: u, v, s', rfl, by simpa using hw⟩
    · rintro ⟨u, v, s', huv, hw⟩
      cases u with
      | nil =>
        obtain rfl : v = c :: cs := huv.symm
        exact .inl ⟨s', hw⟩
      | cons c' u =>
        obtain ⟨rfl, rfl⟩ := List.cons.inj huv
        exact .inr ⟨u, v, s', rfl, by simpa using hw⟩

/-- A search finds something exactly if some position of the text has a match. -/
theorem search_isSome_iff {text : List Char} :
    (r.search text).isSome = true ↔ ∃ u v s', text = u ++ v ∧ Way r ⟨u.reverse, v, []⟩ s' := by
  rw [search, searchFrom_isSome_iff]
  simp

end ways

end Regex
end Lib
end AutoSRE
