import AutoSRE.Python.Text
import Mathlib.Data.List.Infix

/-!
# Searching in a `str`

`lowerChars` is `str.lower`, as far as an ASCII text can be found in the result, and `upperChars` is
`str.upper`; `containsChars` is `needle in hay` (`containsChars_iff`); `replaceFirst` is
`text.replace(old, new, 1)` (`replaceFirst_eq`).
-/

namespace AutoSRE
namespace Py

/-- The lower case of a character. Besides the ASCII letters, only the Kelvin sign and the capital
I with a dot above have a lower case with an ASCII character; what other characters become is left
out, since no ASCII text can be found in it. -/
def lowerChar (c : Char) : List Char :=
  if c.toNat = 0x212a then ['k']
  else if c.toNat = 0x130 then ['i', Char.ofNat 0x307]
  else [c.toLower]

/-- `str.lower`, on characters. -/
def lowerChars (cs : List Char) : List Char := cs.flatMap lowerChar

/-- The characters that are not ASCII, but whose upper case has an ASCII letter. -/
def upperTable : List (Nat × List Char) :=
  [(0xdf, ['S', 'S']), (0x131, ['I']), (0x149, [Char.ofNat 0x2bc, 'N']), (0x17f, ['S']),
    (0x1f0, ['J', Char.ofNat 0x30c]), (0x1e96, ['H', Char.ofNat 0x331]),
    (0x1e97, ['T', Char.ofNat 0x308]), (0x1e98, ['W', Char.ofNat 0x30a]),
    (0x1e99, ['Y', Char.ofNat 0x30a]), (0x1e9a, ['A', Char.ofNat 0x2be]), (0xfb00, ['F', 'F']),
    (0xfb01, ['F', 'I']), (0xfb02, ['F', 'L']), (0xfb03, ['F', 'F', 'I']),
    (0xfb04, ['F', 'F', 'L']), (0xfb05, ['S', 'T']), (0xfb06, ['S', 'T'])]

/-- The upper case of a character. What the other characters that are not ASCII become is left out,
since no ASCII text can be found in it. -/
def upperChar (c : Char) : List Char :=
  if c.toNat < 128 then [c.toUpper] else (upperTable.lookup c.toNat).getD [c]

/-- `str.upper`, on characters. -/
def upperChars (cs : List Char) : List Char := cs.flatMap upperChar

/-- `needle in hay`, on characters. -/
def containsChars (needle : List Char) : List Char → Bool
  | [] => needle.isEmpty
  | c :: cs => needle.isPrefixOf (c :: cs) || containsChars needle cs

theorem containsChars_iff (needle hay : List Char) :
    containsChars needle hay = true ↔ needle <:+: hay := by
  induction hay with
  | nil => simp [containsChars]
  | cons c cs ih => simp [containsChars, ih, List.infix_cons_iff]

/-- `needle in hay.lower()`. -/
def lowerContains (needle hay : String) : Bool :=
  containsChars needle.toList (lowerChars hay.toList)

/-- `text.replace(c, new)` for one character. -/
def replaceChar (c : Char) (new text : List Char) : List Char :=
  text.flatMap fun d => if d = c then new else [d]

@[simp] theorem replaceChar_nil (c : Char) (new : List Char) : replaceChar c new [] = [] := rfl

theorem replaceChar_cons (c : Char) (new : List Char) (d : Char) (text : List Char) :
    replaceChar c new (d :: text) =
      (if d = c then new else [d]) ++ replaceChar c new text := List.flatMap_cons

theorem replaceChar_cons_ne {c d : Char} (h : d ≠ c) (new text : List Char) :
    replaceChar c new (d :: text) = d :: replaceChar c new text := by
  rw [replaceChar_cons, if_neg h, List.singleton_append]

theorem replaceChar_append (c : Char) (new text text' : List Char) :
    replaceChar c new (text ++ text') =
      replaceChar c new text ++ replaceChar c new text' := List.flatMap_append

/-- A character of the result is one of the new ones, or was there before. -/
theorem mem_replaceChar {c d : Char} {new text : List Char} (h : d ∈ replaceChar c new text) :
    d ∈ new ∨ d ∈ text ∧ d ≠ c := by
  obtain ⟨e, he, hd⟩ := List.mem_flatMap.mp h
  split at hd
  · exact .inl hd
  · next hne =>
    cases List.mem_singleton.mp hd
    exact .inr ⟨he, hne⟩

/-- `text.replace(old, new, 1)`, on characters. -/
def replaceFirst (old new : List Char) : List Char → List Char
  | [] => if old.isEmpty then new else []
  | c :: cs =>
    if old.isPrefixOf (c :: cs) then new ++ (c :: cs).drop old.length
    else c :: replaceFirst old new cs

/-- A text that is found is replaced where it stands. -/
theorem replaceFirst_eq {old text : List Char} (new : List Char) (h : old <:+: text) :
    ∃ pre post, text = pre ++ (old ++ post) ∧
      replaceFirst old new text = pre ++ (new ++ post) := by
  induction text with
  | nil =>
    cases List.infix_nil.mp h
    exact ⟨[], [], rfl, (List.append_nil new).symm⟩
  | cons c cs ih =>
    rw [replaceFirst]
    split
    · next hstart =>
      obtain ⟨post, hpost⟩ := List.isPrefixOf_iff_prefix.mp hstart
      refine ⟨[], post, hpost.symm, ?_⟩
      rw [← hpost, List.drop_left, List.nil_append]
    · next hstart =>
      have hrest : old <:+: cs :=
        (List.infix_cons_iff.mp h).resolve_left (mt List.isPrefixOf_iff_prefix.mpr hstart)
      obtain ⟨pre, post, rfl, hreplace⟩ := ih hrest
      exact ⟨c :: pre, post, rfl, congrArg (c :: ·) hreplace⟩

end Py
end AutoSRE
