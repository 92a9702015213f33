import Roundtable.Json.Node
import Roundtable.Json.Printer
import Roundtable.Proofs.Text.Numerals

/-!
# Texts that are read back

A text is written between quotes with some of its characters escaped. A reader takes one
step for each character, escaped or not (`Roundtable.Json.readText_escapeChar`), so **it
reads the text that was written, and stops behind its quote**
(`Roundtable.Json.readText_quote`).
-/

namespace Roundtable.Json

/-! ### Escapes -/

theorem hex_four (n : Nat) : Numeral.hex 4 n =
    [hexChar (n / 16 / 16 / 16), hexChar (n / 16 / 16), hexChar (n / 16), hexChar n] := rfl

/-- Four hexadecimal digits are read back. -/
theorem hexUnit?_hex {n : Nat} (h : n < 2 ^ 16) (rest : List Char) :
    hexUnit? (Numeral.hex 4 n ++ rest) = .ok (n, rest) := by
  have hvalue :
      ((n / 16 / 16 / 16 % 16 * 16 + n / 16 / 16 % 16) * 16 + n / 16 % 16) * 16 + n % 16 = n := by
    omega
  rw [hex_four]
  simp only [List.cons_append, List.nil_append, hexUnit?, hexValue?_hexChar, hvalue]

/-- A character that is not half of a pair is an escaped unit of its own. -/
theorem unitChar_of_lt {n : Nat} (h : n < 0x20) (rest : List Char) :
    unitChar n rest = .ok (Char.ofNat n, false) := by
  have hlow : isLowHalf n = false := by
    simp only [isLowHalf, Bool.and_eq_false_iff, decide_eq_false_iff_not]
    omega
  have hhigh : isHighHalf n = false := by
    simp only [isHighHalf, Bool.and_eq_false_iff, decide_eq_false_iff_not]
    omega
  simp [unitChar, hlow, hhigh]

theorem readText_simple {c d : Char} (hc : c ≠ 'u') (h : simpleEscape? c = some d) (n : Nat)
    (acc rest : List Char) :
    readText (n + 1) (.ok acc) ('\\' :: c :: rest) = readText n (.ok (d :: acc)) rest := by
  simp only [readText, h]
  rfl

theorem readText_unit {c : Char} (h : c.toNat < 0x20) (n : Nat) (acc rest : List Char) :
    readText (n + 1) (.ok acc) ('\\' :: 'u' :: (Numeral.hex 4 c.toNat ++ rest)) =
      readText n (.ok (c :: acc)) rest := by
  simp only [readText, hexUnit?_hex (show c.toNat < 2 ^ 16 by omega), unitChar_of_lt h,
    Char.ofNat_toNat]
  rfl

theorem readText_plain {c : Char} (hq : c ≠ '"') (hb : c ≠ '\\') (h : ¬c.toNat < 0x20) (n : Nat)
    (acc rest : List Char) :
    readText (n + 1) (.ok acc) (c :: rest) = readText n (.ok (c :: acc)) rest := by
  rw [readText]
  · rw [if_neg h]
    rfl
  all_goals simp_all

/-- **A character is read in one step**, escaped or not. -/
theorem readText_escapeChar (c : Char) (n : Nat) (acc rest : List Char) :
    readText (n + 1) (.ok acc) (escapeChar c ++ rest) = readText n (.ok (c :: acc)) rest := by
  unfold escapeChar
  split
  · exact readText_simple (by decide) rfl n acc rest
  · exact readText_simple (by decide) rfl n acc rest
  · exact readText_simple (by decide) rfl n acc rest
  · exact readText_simple (by decide) rfl n acc rest
  · exact readText_simple (by decide) rfl n acc rest
  · exact readText_simple (by decide) rfl n acc rest
  · exact readText_simple (by decide) rfl n acc rest
  · next hq hb _ _ _ _ _ =>
    split
    · next h => exact readText_unit h n acc rest
    · next h => exact readText_plain hq hb h n acc rest

/-! ### Texts -/

/-- An escape has at least one character. -/
theorem length_le_flatMap_escapeChar (s : List Char) :
    s.length ≤ (s.flatMap escapeChar).length := by
  induction s with
  | nil => exact Nat.le_refl 0
  | cons c s ih =>
    have hone : 0 < (escapeChar c).length := by
      unfold escapeChar
      split <;> try split
      all_goals simp
    rw [List.flatMap_cons, List.length_append, List.length_cons]
    omega

theorem readText_flatMap (s : List Char) {n : Nat} (h : s.length < n) (acc rest : List Char) :
    readText n (.ok acc) (s.flatMap escapeChar ++ '"' :: rest) =
      ⟨.ok (String.ofList (acc.reverse ++ s)), .ok rest⟩ := by
  induction s generalizing n acc with
  | nil =>
    obtain ⟨n, rfl⟩ : ∃ k, n = k + 1 := ⟨n - 1, by simp only [List.length_nil] at h; omega⟩
    rw [List.append_nil]
    rfl
  | cons c s ih =>
    obtain ⟨n, rfl⟩ : ∃ k, n = k + 1 := ⟨n - 1, by omega⟩
    rw [List.flatMap_cons, List.append_assoc, readText_escapeChar,
      ih (by simpa using h) (c :: acc), List.reverse_cons, List.append_assoc]
    rfl

/-- **A text is read back from between its quotes**, and what stands behind them is left. -/
theorem readText_quote (s : String) {n : Nat} (h : s.toList.length < n) (rest : List Char) :
    readText n (.ok []) (s.toList.flatMap escapeChar ++ '"' :: rest) = ⟨.ok s, .ok rest⟩ := by
  rw [readText_flatMap _ h, List.reverse_nil, List.nil_append, String.ofList_toList]

end Roundtable.Json
