import Roundtable.Text.Blank
import Roundtable.Text.Numeral

/-!
# Numerals that are read back

A number written in base ten is a row of digits, never empty, that starts with a zero only
when the number is zero. **Reading the digits gives the number**
(`Roundtable.Numeral.value_ofNat`), however many zeros were put in front of them
(`Roundtable.Numeral.below?_padded`).
-/

namespace Roundtable

/-! ### Single digits -/

/-- There are ten digits. -/
theorem digitChar_cases {P : Nat → Char → Prop}
    (h : ∀ k < 10, P k (Char.ofNat ('0'.toNat + k))) (n : Nat) : P (n % 10) (digitChar n) :=
  h _ (Nat.mod_lt _ (by omega))

@[simp] theorem isDigit_digitChar (n : Nat) : isDigit (digitChar n) = true :=
  digitChar_cases (P := fun _ c => isDigit c = true) (by decide) n

@[simp] theorem digitValue_digitChar (n : Nat) : digitValue (digitChar n) = n % 10 :=
  digitChar_cases (P := fun k c => digitValue c = k) (by decide) n

theorem digitChar_eq_zero_iff {n : Nat} : digitChar n = '0' ↔ n % 10 = 0 :=
  digitChar_cases (P := fun k c => c = '0' ↔ k = 0) (by decide) n

/-- A digit is not blank. -/
theorem isBlank_of_isDigit {c : Char} (h : isDigit c = true) : isBlank c = false := by
  simp only [isDigit, Bool.and_eq_true, decide_eq_true_eq, Char.le_def,
    UInt32.le_iff_toNat_le] at h
  have hlow : 48 ≤ c.toNat := h.1
  have hhigh : c.toNat ≤ 57 := h.2
  simp only [isBlank, Bool.or_eq_false_iff, Bool.and_eq_false_iff, beq_eq_false_iff_ne,
    decide_eq_false_iff_not]
  omega

/-- Hexadecimal digits are read back. -/
theorem hexValue?_hexChar (n : Nat) : hexValue? (hexChar n) = some (n % 16) := by
  have hall : ∀ k < 16, hexValue? (hexChar k) = some (k % 16) := by decide
  have hmod : hexChar n = hexChar (n % 16) := by
    simp only [hexChar, Nat.mod_mod]
  rw [hmod, hall _ (Nat.mod_lt _ (by omega)), Nat.mod_mod]

namespace Numeral

variable {n : Nat} {s t : List Char}

/-! ### Rows of digits -/

theorem digitsOnto_eq_append (n : Nat) (tail : List Char) :
    digitsOnto n tail = digitsOnto n [] ++ tail := by
  induction n using Nat.strongRecOn generalizing tail with
  | ind n ih =>
    rw [digitsOnto, digitsOnto.eq_def n []]
    split
    · rfl
    · next h =>
      rw [ih (n / 10) (by omega), ih (n / 10) (by omega) [digitChar n]]
      simp

/-- The last digit stands behind the digits of the rest. -/
theorem digitsOnto_of_ne_zero (h : n ≠ 0) :
    digitsOnto n [] = digitsOnto (n / 10) [] ++ [digitChar n] := by
  rw [digitsOnto.eq_def n [], if_neg h, digitsOnto_eq_append]

theorem digitsOnto_zero (tail : List Char) : digitsOnto 0 tail = tail := by
  rw [digitsOnto, if_pos rfl]

theorem all_isDigit_digitsOnto (n : Nat) : (digitsOnto n []).all isDigit = true := by
  induction n using Nat.strongRecOn with
  | ind n ih =>
    rcases Nat.eq_zero_or_pos n with rfl | hn
    · rw [digitsOnto_zero]
      rfl
    · rw [digitsOnto_of_ne_zero (by omega), List.all_append, ih (n / 10) (by omega)]
      simp

theorem valueFrom_append (v : Nat) (s t : List Char) :
    valueFrom v (s ++ t) = valueFrom (valueFrom v s) t :=
  List.foldl_append

theorem value_digitsOnto (n : Nat) : value (digitsOnto n []) = n := by
  induction n using Nat.strongRecOn with
  | ind n ih =>
    rcases Nat.eq_zero_or_pos n with rfl | hn
    · rw [digitsOnto_zero]
      rfl
    · have hrest := ih (n / 10) (by omega)
      rw [value] at hrest ⊢
      rw [digitsOnto_of_ne_zero (by omega), valueFrom_append, hrest]
      simp only [valueFrom, List.foldl_cons, List.foldl_nil, digitValue_digitChar]
      omega

/-- A row of digits starts with the digit that counts most. -/
theorem head?_digitsOnto (h : n ≠ 0) :
    ∃ c, (digitsOnto n []).head? = some c ∧ c ≠ '0' ∧ isDigit c = true := by
  induction n using Nat.strongRecOn with
  | ind n ih =>
    rw [digitsOnto_of_ne_zero h]
    by_cases hq : n / 10 = 0
    · refine ⟨digitChar n, by rw [hq, digitsOnto_zero]; rfl, ?_, isDigit_digitChar n⟩
      rw [Ne, digitChar_eq_zero_iff]
      omega
    · obtain ⟨c, hc, hne, hd⟩ := ih (n / 10) (by omega) hq
      exact ⟨c, by rw [List.head?_append, hc]; rfl, hne, hd⟩

/-! ### Numbers -/

theorem all_isDigit_ofNat (n : Nat) : (ofNat n).all isDigit = true := by
  unfold ofNat
  split
  · rfl
  · exact all_isDigit_digitsOnto n

/-- **A number is read back from its digits.** -/
theorem value_ofNat (n : Nat) : value (ofNat n) = n := by
  unfold ofNat
  split
  · next h =>
    subst h
    rfl
  · exact value_digitsOnto n

theorem head?_ofNat (h : n ≠ 0) :
    ∃ c, (ofNat n).head? = some c ∧ c ≠ '0' ∧ isDigit c = true := by
  rw [ofNat, if_neg h]
  exact head?_digitsOnto h

theorem ofNat_ne_nil (n : Nat) : ofNat n ≠ [] := by
  by_cases h : n = 0
  · subst h
    decide
  · obtain ⟨c, hc, -⟩ := head?_ofNat h
    intro hnil
    rw [hnil] at hc
    cases hc

/-- Nothing changes for a number when zeros are put in front of its digits. -/
theorem value_replicate_append (k : Nat) (s : List Char) :
    value (List.replicate k '0' ++ s) = value s := by
  have hzero : valueFrom 0 (List.replicate k '0') = 0 := by
    induction k with
    | zero => rfl
    | succ k ih =>
      rw [List.replicate_succ']
      rw [valueFrom_append, ih]
      rfl
  rw [value, valueFrom_append, hzero]
  rfl

theorem all_isDigit_padded (width n : Nat) : (padded width n).all isDigit = true := by
  have hzeros : (List.replicate (width - (ofNat n).length) '0').all isDigit = true :=
    List.all_eq_true.mpr fun c hc => by rw [List.eq_of_mem_replicate hc]; rfl
  rw [padded]
  rw [List.all_append, hzeros, all_isDigit_ofNat]
  rfl

theorem value_padded (width n : Nat) : value (padded width n) = n := by
  rw [padded]
  rw [value_replicate_append, value_ofNat]

theorem padded_ne_nil (width n : Nat) : padded width n ≠ [] := by
  rw [padded]
  rw [Ne, List.append_eq_nil_iff]
  exact fun h => ofNat_ne_nil n h.2

/-- A row of digits starts with one. -/
theorem exists_cons_padded (width n : Nat) :
    ∃ c r, padded width n = c :: r ∧ isDigit c = true := by
  obtain ⟨c, r, hcons⟩ := List.exists_cons_of_ne_nil (padded_ne_nil width n)
  have hall := all_isDigit_padded width n
  rw [hcons, List.all_cons, Bool.and_eq_true] at hall
  exact ⟨c, r, hcons, hall.1⟩

theorem ofDigits?_padded (width n : Nat) : ofDigits? (padded width n) = some n := by
  rw [ofDigits?, if_neg (by simpa using padded_ne_nil width n), if_pos (all_isDigit_padded width n),
    value_padded]

/-- A number has no more digits than its power of ten. -/
theorem length_digitsOnto_le {w : Nat} (h : n < 10 ^ w) : (digitsOnto n []).length ≤ w := by
  induction w generalizing n with
  | zero =>
    have hn : n = 0 := by simpa using h
    rw [hn, digitsOnto_zero]
    exact Nat.le_refl 0
  | succ w ih =>
    rcases Nat.eq_zero_or_pos n with rfl | hn
    · rw [digitsOnto_zero]
      exact Nat.zero_le _
    · have hrest := ih (n := n / 10) (by rw [Nat.pow_succ] at h; omega)
      rw [digitsOnto_of_ne_zero (by omega), List.length_append]
      simpa using hrest

theorem length_ofNat_le {w : Nat} (hw : 0 < w) (h : n < 10 ^ w) : (ofNat n).length ≤ w := by
  unfold ofNat
  split
  · exact hw
  · exact length_digitsOnto_le h

theorem length_padded_eq (width n : Nat) :
    (padded width n).length = max width (ofNat n).length := by
  rw [padded, List.length_append, List.length_replicate]
  omega

/-- A number that fits its places fills them. -/
theorem length_padded {w : Nat} (hw : 0 < w) (h : n < 10 ^ w) : (padded w n).length = w := by
  rw [length_padded_eq, Nat.max_eq_left (length_ofNat_le hw h)]

/-- **A number on several places is read back**, below the limit of its reader. -/
theorem below?_padded {limit : Nat} (width : Nat) (h : n < limit) :
    below? limit (padded width n) = some n := by
  unfold below?
  have hsign : ∀ r, padded width n ≠ '+' :: r := by
    intro r hr
    have hall := all_isDigit_padded width n
    rw [hr, List.all_cons] at hall
    cases hall
  split
  · next r hr => exact absurd hr (hsign r)
  · simp only [ofDigits?_padded, if_pos h]

/-! ### What stands behind a number -/

/-- No digit stands here. -/
def NoDigit (rest : List Char) : Prop := ∀ c ∈ rest.head?, isDigit c = false

theorem noDigit_cons {c : Char} {rest : List Char} : NoDigit (c :: rest) ↔ isDigit c = false := by
  simp [NoDigit]

variable {ds rest : List Char}

theorem takeWhile_digits (hd : ds.all isDigit = true) (hr : NoDigit rest) :
    (ds ++ rest).takeWhile isDigit = ds := by
  rw [List.takeWhile_append_of_pos (List.all_eq_true.mp hd)]
  cases rest with
  | nil => simp
  | cons c rest => simp [noDigit_cons.mp hr]

theorem dropWhile_digits (hd : ds.all isDigit = true) (hr : NoDigit rest) :
    (ds ++ rest).dropWhile isDigit = rest := by
  rw [List.dropWhile_append_of_pos (List.all_eq_true.mp hd)]
  cases rest with
  | nil => rfl
  | cons c rest => simp [noDigit_cons.mp hr]

theorem le_valueFrom (v : Nat) (ds : List Char) : v ≤ valueFrom v ds := by
  induction ds generalizing v with
  | nil => exact Nat.le_refl v
  | cons c ds ih =>
    have hstep : v ≤ v * 10 + digitValue c := by omega
    exact Nat.le_trans hstep (ih _)

end Numeral

end Roundtable
