import AutoSRE.Lib.JsonText
import AutoSRE.Python.Render

/-!
# What `json.dumps` writes

- **Code units** (`chars_escapeUnit`). Four hexadecimal digits denote the unit they are made of; a
  character beyond the basic plane is written as two units, which denote it together.
- **Strings** (`chars_dump`). What `json.dumps` writes between the quotes denotes the string, in
  ASCII or not.
-/

namespace AutoSRE
namespace Py
namespace Json

open Lib.JsonText (Chars consUnit hex4)

theorem hexDigit_value {k : Nat} (h : k < 16) :
    Lib.JsonText.hexDigit (hexDigit k) = some k := by
  have hall : ∀ k : Fin 16, Lib.JsonText.hexDigit (hexDigit k) = some k.val := by decide
  exact hall ⟨k, h⟩

theorem hex4_value {n : Nat} (h : n < 65536) :
    hex4 (hexDigit (n / 4096 % 16)) (hexDigit (n / 256 % 16)) (hexDigit (n / 16 % 16))
      (hexDigit (n % 16)) = some n := by
  have hlt (m : Nat) : m % 16 < 16 := Nat.mod_lt m (by decide)
  simp only [hex4, hexDigit_value (hlt _)]
  exact congrArg some (by omega)

theorem chars_escapeUnit {n : Nat} (h : n < 65536) {s : List Nat} {t : List Char}
    (ht : Chars s t) : Chars (consUnit n s) (escapeUnit n ++ t) :=
  .unicode _ _ _ _ n (hex4_value h) ht

/-- A code unit that is not a high surrogate stands alone. -/
theorem consUnit_eq {n : Nat} (h : n < 0xd800 ∨ 0xdbff < n) (s : List Nat) :
    consUnit n s = n :: s := by
  cases s with
  | nil => rfl
  | cons m s => exact if_neg (by omega)

/-- A character is not a surrogate. -/
theorem consUnit_char (c : Char) (s : List Nat) : consUnit c.toNat s = c.toNat :: s := by
  refine consUnit_eq ?_ s
  rcases c.valid with h | ⟨h, -⟩
  · exact .inl h
  · exact .inr (Nat.lt_trans (by decide) h)

/-- Two code units make the character that they are made of. -/
theorem consUnit_pair {n : Nat} (hlow : 0x10000 ≤ n) (hhigh : n < 0x110000) (s : List Nat) :
    consUnit (0xd800 + (n - 0x10000) / 1024) (consUnit (0xdc00 + (n - 0x10000) % 1024) s) =
      n :: s := by
  have hsecond : consUnit (0xdc00 + (n - 0x10000) % 1024) s =
      (0xdc00 + (n - 0x10000) % 1024) :: s := consUnit_eq (.inr (by omega)) s
  rw [hsecond, consUnit, if_pos (by omega)]
  exact congrArg (· :: s) (by omega)

theorem chars_dumpChar (ascii : Bool) (c : Char) {s : List Nat} {t : List Char} (ht : Chars s t) :
    Chars (c.toNat :: s) (dumpChar ascii c ++ t) := by
  have hbound : c.toNat < 0x110000 := by
    rcases c.valid with h | ⟨-, h⟩
    · exact Nat.lt_trans h (by decide)
    · exact h
  have hcode {k : Nat} (h : c.toNat = k) : c = Char.ofNat k := by
    rw [← h, Char.ofNat_toNat]
  simp only [dumpChar]
  split_ifs with hquote hn hr ht' hb hf hunit hpair
  · rcases hquote with rfl | rfl
    · exact .escape '"' '"' rfl ht
    · exact .escape '\\' '\\' rfl ht
  · subst hn
    exact .escape 'n' '\n' rfl ht
  · subst hr
    exact .escape 'r' '\r' rfl ht
  · subst ht'
    exact .escape 't' '\t' rfl ht
  · cases hcode hb
    exact .escape 'b' (Char.ofNat 8) rfl ht
  · cases hcode hf
    exact .escape 'f' (Char.ofNat 12) rfl ht
  · rw [← consUnit_char c s]
    exact chars_escapeUnit (by omega) ht
  · have hlarge : 0x10000 ≤ c.toNat :=
      Nat.le_of_not_lt fun h => hunit (.inr ⟨hpair.1, hpair.2, h⟩)
    rw [List.append_assoc, ← consUnit_pair hlarge hbound s]
    exact chars_escapeUnit (by omega) (chars_escapeUnit (by omega) ht)
  · obtain ⟨hq, hs⟩ := not_or.mp hquote
    exact .plain c (by omega) hq hs ht

theorem chars_dump (ascii : Bool) (cs : List Char) :
    Chars (cs.map Char.toNat) (cs.flatMap (dumpChar ascii)) := by
  induction cs with
  | nil => exact .nil
  | cons c cs ih => exact chars_dumpChar ascii c ih

end Json
end Py
end AutoSRE
