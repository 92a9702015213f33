import Roundtable.Proofs.Text.Numerals
import Roundtable.Time.Span

/-!
# Spans that are read back

A span is written as a sum of terms, each a count and the name of a unit. The reader adds
the terms one after the other, in 64 bits. **Nothing is carried on the way**: the terms below
the second never make a second, and those above it add up to the seconds of the span
(`Roundtable.Span.sums_terms`). So a span whose seconds fit is read as itself
(`Roundtable.Span.ofText?_text`), and every span that is read is one of these
(`Roundtable.Span.seconds_lt_of_ofText?`).
-/

namespace Roundtable.Span

open Numeral

variable {name : String} {unit : SpanUnit} {c : Char} {rest : List Char}

/-! ### Names of units -/

/-- A letter is no digit and not blank. -/
theorem not_digit_of_isUnitChar (h : isUnitChar c = true) :
    isDigit c = false ∧ isBlank c = false := by
  have hletter : (65 ≤ c.toNat ∧ c.toNat ≤ 122) ∨ c = 'µ' := by
    simp only [isUnitChar, Bool.or_eq_true, Bool.and_eq_true, decide_eq_true_eq, Char.le_def,
      UInt32.le_iff_toNat_le, beq_iff_eq] at h
    rcases h with (⟨hlow, hhigh⟩ | ⟨hlow, hhigh⟩) | h
    · have hlow : 97 ≤ c.toNat := hlow
      have hhigh : c.toNat ≤ 122 := hhigh
      omega
    · have hlow : 65 ≤ c.toNat := hlow
      have hhigh : c.toNat ≤ 90 := hhigh
      omega
    · exact .inr h
  rcases hletter with ⟨hlow, hhigh⟩ | rfl
  · constructor
    · rw [Bool.eq_false_iff]
      intro hdigit
      simp only [isDigit, Bool.and_eq_true, decide_eq_true_eq, Char.le_def,
        UInt32.le_iff_toNat_le] at hdigit
      have hnine : c.toNat ≤ 57 := hdigit.2
      omega
    · simp only [isBlank, Bool.or_eq_false_iff, Bool.and_eq_false_iff, beq_eq_false_iff_ne,
        decide_eq_false_iff_not]
      omega
  · exact ⟨by decide, by decide⟩

/-- **A name that is read as a unit.** -/
structure Names (name : String) (unit : SpanUnit) : Prop where
  meaning : SpanUnit.ofName? name = some unit
  letters : name.toList.all isUnitChar = true
  notEmpty : name.toList ≠ []

/-- One year, month or day has the singular name, several have the plural. -/
theorem names_plural {n : Nat} (h : Names name unit) (hs : Names (name ++ "s") unit) :
    Names (if n = 1 then name else name ++ "s") unit := by
  split
  · exact h
  · exact hs

/-- A unit ends here: a space is next, or nothing. -/
def UnitEnds (rest : List Char) : Prop := ∀ c ∈ rest.head?, c = ' '

theorem unit?_append (h : Names name unit) (hr : UnitEnds rest) :
    unit? (name.toList ++ rest) = some (unit, rest) := by
  have hall := List.all_eq_true.mp h.letters
  unfold unit?
  rw [List.takeWhile_append_of_pos hall, List.dropWhile_append_of_pos hall]
  cases rest with
  | nil => simp [h.meaning]
  | cons c rest =>
    obtain rfl : c = ' ' := hr c rfl
    have hspace : isUnitChar ' ' = false := by decide
    have hblank : isBlank ' ' = true := rfl
    simp [h.meaning, hspace, hblank]

/-! ### Counts -/

/-- **A count that fits is read**, up to the name of its unit. -/
theorem count?_append {v : Nat} {ds : List Char} (hd : ds.all isDigit = true)
    (hv : valueFrom v ds < countLimit) (hc : isUnitChar c = true) :
    count? v (ds ++ c :: rest) = some (valueFrom v ds, none, c :: rest) := by
  induction ds generalizing v with
  | nil =>
    obtain ⟨hdigit, hblank⟩ := not_digit_of_isUnitChar hc
    simp [count?, hdigit, hblank, hc, valueFrom]
  | cons d ds ih =>
    rw [List.all_cons, Bool.and_eq_true] at hd
    have hnext : v * 10 + digitValue d < countLimit := Nat.lt_of_le_of_lt (le_valueFrom _ ds) hv
    rw [List.cons_append, count?, if_pos hd.1, fit?, if_pos hnext]
    exact ih hd.2 hv

/-! ### Terms -/

/-- A term as written. -/
def termText (t : Nat × String) : List Char := Numeral.ofNat t.1 ++ t.2.toList

/-- **What terms add up to**, in seconds and in nanoseconds below them. -/
inductive Sums : List (Nat × String) → Nat → Nat → Prop
  | nil : Sums [] 0 0
  | cons (n : Nat) {name : String} {unit : SpanUnit} {terms : List (Nat × String)}
      {secs nanos : Nat} (hn : Names name unit) (h : Sums terms secs nanos) :
      Sums ((n, name) :: terms) (n * unit.seconds + secs) (n * unit.nanoseconds + nanos)

/-- Terms of nothing add nothing. -/
theorem Sums.filter {terms : List (Nat × String)} {secs nanos : Nat} (h : Sums terms secs nanos) :
    Sums (terms.filter (·.1 ≠ 0)) secs nanos := by
  induction h with
  | nil => exact .nil
  | cons n hn _ ih =>
    by_cases hzero : n = 0
    · subst hzero
      rw [List.filter_cons_of_neg (by simp), Nat.zero_mul, Nat.zero_mul, Nat.zero_add,
        Nat.zero_add]
      exact ih
    · rw [List.filter_cons_of_pos (by simpa using hzero)]
      exact .cons n hn ih

/-- **The terms of a span add up to it.** -/
theorem sums_terms (s : Span) : Sums s.terms s.seconds s.subsecond := by
  have hall : Sums
      [(s.seconds / 31557600, if s.seconds / 31557600 = 1 then "year" else "year" ++ "s"),
        (s.seconds % 31557600 / 2630016,
          if s.seconds % 31557600 / 2630016 = 1 then "month" else "month" ++ "s"),
        (s.seconds % 31557600 % 2630016 / 86400,
          if s.seconds % 31557600 % 2630016 / 86400 = 1 then "day" else "day" ++ "s"),
        (s.seconds % 31557600 % 2630016 % 86400 / 3600, "h"),
        (s.seconds % 31557600 % 2630016 % 86400 % 3600 / 60, "m"),
        (s.seconds % 31557600 % 2630016 % 86400 % 60, "s"), (s.subsecond / 1000000, "ms"),
        (s.subsecond / 1000 % 1000, "us"), (s.subsecond % 1000, "ns")] _ _ :=
    .cons _ (names_plural (show Names "year" .year from ⟨rfl, rfl, by decide⟩)
      ⟨rfl, rfl, by decide⟩) <|
    .cons _ (names_plural (show Names "month" .month from ⟨rfl, rfl, by decide⟩)
      ⟨rfl, rfl, by decide⟩) <|
    .cons _ (names_plural (show Names "day" .day from ⟨rfl, rfl, by decide⟩)
      ⟨rfl, rfl, by decide⟩) <|
    .cons _ (show Names "h" .hour from ⟨rfl, rfl, by decide⟩) <|
    .cons _ (show Names "m" .minute from ⟨rfl, rfl, by decide⟩) <|
    .cons _ (show Names "s" .second from ⟨rfl, rfl, by decide⟩) <|
    .cons _ (show Names "ms" .millisecond from ⟨rfl, rfl, by decide⟩) <|
    .cons _ (show Names "us" .microsecond from ⟨rfl, rfl, by decide⟩) <|
    .cons _ (show Names "ns" .nanosecond from ⟨rfl, rfl, by decide⟩) .nil
  have hseconds : s.seconds = s.seconds / 31557600 * 31557600 +
      (s.seconds % 31557600 / 2630016 * 2630016 +
      (s.seconds % 31557600 % 2630016 / 86400 * 86400 +
      (s.seconds % 31557600 % 2630016 % 86400 / 3600 * 3600 +
      (s.seconds % 31557600 % 2630016 % 86400 % 3600 / 60 * 60 +
      s.seconds % 31557600 % 2630016 % 86400 % 60)))) := by
    have hmod : s.seconds % 31557600 % 2630016 % 86400 % 3600 % 60 =
        s.seconds % 31557600 % 2630016 % 86400 % 60 := Nat.mod_mod_of_dvd _ (by decide)
    omega
  have hnanos : s.subsecond = s.subsecond / 1000000 * 1000000 +
      (s.subsecond / 1000 % 1000 * 1000 + s.subsecond % 1000) := by omega
  have hsums := hall.filter
  simp only [SpanUnit.seconds, SpanUnit.nanoseconds, perMilli, Nat.mul_zero, Nat.mul_one,
    Nat.zero_add, Nat.add_zero] at hsums
  rwa [← hseconds, ← hnanos] at hsums

/-! ### Sums -/

/-- Every unit is worth something. -/
theorem worth (unit : SpanUnit) : 1 ≤ unit.seconds ∨ 1 ≤ unit.nanoseconds := by
  cases unit <;> decide

/-- **Nothing is carried** while the parts below the second do not make one. -/
theorem addTerm?_eq {secs nanos n : Nat} (hs : secs + n * unit.seconds < countLimit)
    (hn : nanos + n * unit.nanoseconds < perSecond) :
    addTerm? (secs, nanos) n none unit =
      some (secs + n * unit.seconds, nanos + n * unit.nanoseconds) := by
  have hlimit : perSecond < countLimit := by decide
  have hfit (m : Nat) (h : m < countLimit) : fit? m = some m := if_pos h
  simp only [addTerm?, add?, hfit _ (show n * unit.seconds < countLimit by omega),
    hfit _ (show n * unit.nanoseconds < countLimit by omega),
    hfit _ (show nanos + n * unit.nanoseconds < countLimit by omega), Nat.div_eq_of_lt hn,
    Nat.mod_eq_of_lt hn, Nat.add_zero, hfit _ hs, bind, Option.bind]
  rfl

/-- Terms in a row, each behind a space. -/
def termRow (terms : List (Nat × String)) : List Char :=
  terms.flatMap fun t => ' ' :: termText t

theorem unitEnds_termRow (terms : List (Nat × String)) : UnitEnds (termRow terms) := by
  intro c hc
  cases terms with
  | nil => cases hc
  | cons t terms => exact (Option.some.inj hc).symm

/-- **A row of terms is read as what they add up to.** -/
theorem sum?_termRow {terms : List (Nat × String)} {secs nanos : Nat} (h : Sums terms secs nanos)
    {k s n : Nat} (hk : terms.length < k) (hs : s + secs < countLimit)
    (hn : n + nanos < perSecond) : sum? k (s, n) (termRow terms) = some (s + secs, n + nanos) := by
  induction h generalizing k s n with
  | nil =>
    obtain ⟨k, rfl⟩ : ∃ j, k = j + 1 := ⟨k - 1, by simp only [List.length_nil] at hk; omega⟩
    rfl
  | @cons m name unit terms secs nanos hname h ih =>
    rw [List.length_cons] at hk
    obtain ⟨k, rfl⟩ : ∃ j, k = j + 1 := ⟨k - 1, by omega⟩
    have hm : m < countLimit := by
      have hlimit : perSecond < countLimit := by decide
      rcases worth unit with hw | hw
      · have := Nat.le_mul_of_pos_right m hw
        omega
      · have := Nat.le_mul_of_pos_right m hw
        omega
    have hall := all_isDigit_ofNat m
    have hvalue := value_ofNat m
    obtain ⟨c, ds, hcons⟩ := List.exists_cons_of_ne_nil (ofNat_ne_nil m)
    obtain ⟨l, letters, hletters⟩ := List.exists_cons_of_ne_nil hname.notEmpty
    have hl := hname.letters
    rw [hcons, List.all_cons, Bool.and_eq_true] at hall
    rw [hletters, List.all_cons, Bool.and_eq_true] at hl
    have hm₀ : valueFrom (digitValue c) ds = m := by
      rw [← hvalue, hcons, value, valueFrom, valueFrom, List.foldl_cons, Nat.zero_mul, Nat.zero_add]
    have hrow : (termRow ((m, name) :: terms)).dropWhile isBlank =
        c :: (ds ++ l :: (letters ++ termRow terms)) := by
      have hrow : termRow ((m, name) :: terms) =
          ' ' :: c :: (ds ++ l :: (letters ++ termRow terms)) := by
        simp [termRow, termText, hcons, hletters]
      have hblank : isBlank ' ' = true := rfl
      rw [hrow]
      simp [hblank, isBlank_of_isDigit hall.1]
    have hcount : count? (digitValue c) (ds ++ l :: (letters ++ termRow terms)) =
        some (m, none, l :: (letters ++ termRow terms)) := by
      rw [count?_append hall.2 (hm₀ ▸ hm) hl.1, hm₀]
    have hunit := unit?_append hname (unitEnds_termRow terms)
    rw [hletters, List.cons_append] at hunit
    rw [sum?, hrow]
    simp only [hall.1, if_true, hcount, hunit, bind, Option.bind,
      addTerm?_eq (show s + m * unit.seconds < countLimit by omega)
        (show n + m * unit.nanoseconds < perSecond by omega)]
    rw [ih (by omega) (by omega) (by omega), Nat.add_assoc, Nat.add_assoc]

theorem sum?_space (k : Nat) (sum : Nat × Nat) (s : List Char) :
    sum? k sum (' ' :: s) = sum? k sum s := by
  cases k with
  | zero => rfl
  | succ k => rw [sum?, sum?, List.dropWhile_cons_of_pos rfl]

/-! ### Spans -/

theorem cons_intercalate {terms : List (Nat × String)} (h : terms ≠ []) :
    ' ' :: [' '].intercalate (terms.map termText) = termRow terms := by
  induction terms with
  | nil => exact absurd rfl h
  | cons t terms ih =>
    cases terms with
    | nil => simp [termRow]
    | cons u terms =>
      rw [List.map_cons, List.map_cons, List.intercalate_cons_cons, ← List.map_cons,
        List.append_assoc, List.singleton_append, ih (List.cons_ne_nil u terms)]
      rfl

/-- **The text of a span is its terms**, with a space between them. -/
theorem cons_toList_text {s : Span} (h : s.isZero = false) :
    s.terms ≠ [] ∧ ' ' :: s.text.toList = termRow s.terms := by
  have hne : s.terms ≠ [] := by
    intro hnil
    have hsums := sums_terms s
    rw [hnil] at hsums
    have hzero : s.nanoseconds = s.nanoseconds / perSecond * perSecond +
        s.nanoseconds % perSecond := (Nat.div_add_mod' _ _).symm
    rw [← seconds, ← subsecond] at hzero
    generalize s.seconds = secs at *
    generalize s.subsecond = nanos at *
    cases hsums
    rw [isZero, hzero] at h
    cases h
  refine ⟨hne, ?_⟩
  rw [text, h, ← cons_intercalate hne]
  have htext : (fun x : Nat × String => (decimal x.1 ++ x.2).toList) = termText := by
    funext x
    simp [termText, decimal]
  rw [if_neg Bool.false_ne_true, String.toList_intercalate, List.map_map]
  exact congrArg (fun f => ' ' :: [' '].intercalate (s.terms.map f)) htext

theorem two_mul_le_termRow (terms : List (Nat × String)) :
    2 * terms.length ≤ (termRow terms).length := by
  induction terms with
  | nil => exact Nat.le_refl 0
  | cons t terms ih =>
    have hdigits := List.length_pos_iff.mpr (ofNat_ne_nil t.1)
    simp only [termRow, termText, List.flatMap_cons, List.length_append, List.length_cons] at ih ⊢
    omega

/-- There is a letter in every term. -/
theorem Sums.exists_letter {terms : List (Nat × String)} {secs nanos : Nat}
    (h : Sums terms secs nanos) (hne : terms ≠ []) :
    ∃ c ∈ termRow terms, isUnitChar c = true := by
  cases h with
  | nil => exact absurd rfl hne
  | @cons n name unit terms _ _ hname h =>
    obtain ⟨l, letters, hletters⟩ := List.exists_cons_of_ne_nil hname.notEmpty
    have hl := hname.letters
    rw [hletters, List.all_cons, Bool.and_eq_true] at hl
    exact ⟨l, by simp [termRow, termText, hletters], hl.1⟩

/-- **A span whose seconds fit is read as itself.** -/
theorem ofText?_text {s : Span} (h : s.seconds < countLimit) : ofText? s.text = some s := by
  cases hzero : s.isZero with
  | true =>
    rw [isZero, beq_iff_eq] at hzero
    obtain rfl : s = ⟨0⟩ := Span.mk.injEq .. ▸ hzero
    rfl
  | false =>
    obtain ⟨hne, hrow⟩ := cons_toList_text hzero
    have hsubsecond : s.subsecond < perSecond := Nat.mod_lt _ (by decide)
    have hlength : s.terms.length < s.text.toList.length + 1 := by
      have hlong := two_mul_le_termRow s.terms
      have hpos := List.length_pos_iff.mpr hne
      rw [← hrow, List.length_cons] at hlong
      omega
    have hsum := sum?_termRow (sums_terms s) (s := 0) (n := 0) hlength (by omega) (by omega)
    rw [← hrow, sum?_space, Nat.zero_add, Nat.zero_add] at hsum
    -- A letter tells the text from a lone zero and from blanks.
    obtain ⟨l, hmem, hl⟩ := (sums_terms s).exists_letter hne
    have hl' : l ∈ s.text.toList := by
      rw [← hrow, List.mem_cons] at hmem
      rcases hmem with rfl | hmem
      · cases hl
      · exact hmem
    have hlone : s.text.toList ≠ ['0'] := by
      intro heq
      rw [heq, List.mem_singleton] at hl'
      rw [hl'] at hl
      cases hl
    have hblank : ¬(s.text.toList.all isBlank = true) := by
      intro hall
      have hl'' := List.all_eq_true.mp hall l hl'
      rw [(not_digit_of_isUnitChar hl).2] at hl''
      cases hl''
    have hwhole : s.seconds * perSecond + s.subsecond = s.nanoseconds := Nat.div_add_mod' _ _
    simp only [ofText?, if_neg hlone, if_neg hblank, hsum, bind, Option.bind, hwhole]
    rfl

/-! ### What is read fits -/

/-- A sum that is held in 64 bits, the parts below the second making none. -/
def IsHeld (sum : Nat × Nat) : Prop := sum.1 < countLimit ∧ sum.2 < perSecond

theorem fit?_eq_some {m n : Nat} : fit? m = some n ↔ m = n ∧ m < countLimit := by
  unfold fit?
  split
  · next h => simp [h]
  · next h => simp [h]

theorem isHeld_add? {sum sum' : Nat × Nat} {secs nanos : Nat}
    (h : add? sum secs nanos = some sum') : IsHeld sum' := by
  obtain ⟨total, -, h⟩ := Option.bind_eq_some_iff.mp h
  obtain ⟨carried, -, h⟩ := Option.bind_eq_some_iff.mp h
  obtain ⟨whole, hwhole, h⟩ := Option.bind_eq_some_iff.mp h
  obtain rfl := Option.some.inj h
  obtain ⟨rfl, hlt⟩ := fit?_eq_some.mp hwhole
  exact ⟨hlt, Nat.mod_lt _ (by decide)⟩

theorem isHeld_addTerm? {sum sum' : Nat × Nat} {n : Nat} {fraction : Option Fraction}
    (h : addTerm? sum n fraction unit = some sum') : IsHeld sum' := by
  obtain ⟨secs, -, h⟩ := Option.bind_eq_some_iff.mp h
  obtain ⟨nanos, -, h⟩ := Option.bind_eq_some_iff.mp h
  obtain ⟨counted, hcounted, h⟩ := Option.bind_eq_some_iff.mp h
  cases fraction with
  | none =>
    obtain rfl := Option.some.inj h
    exact isHeld_add? hcounted
  | some f =>
    cases unit <;>
      · obtain ⟨part, -, h⟩ := Option.bind_eq_some_iff.mp h
        exact isHeld_add? h

theorem isHeld_sum? {k : Nat} {sum sum' : Nat × Nat} {s : List Char} (hsum : IsHeld sum)
    (h : sum? k sum s = some sum') : IsHeld sum' := by
  induction k generalizing sum s with
  | zero => cases h
  | succ k ih =>
    rw [sum?] at h
    split at h
    · obtain rfl := Option.some.inj h
      exact hsum
    · split at h
      · obtain ⟨⟨n, fraction, r⟩, -, h⟩ := Option.bind_eq_some_iff.mp h
        obtain ⟨⟨unit, r'⟩, -, h⟩ := Option.bind_eq_some_iff.mp h
        obtain ⟨next, hnext, h⟩ := Option.bind_eq_some_iff.mp h
        exact ih (isHeld_addTerm? hnext) h
      · cases h

/-- **A span that was read has seconds that fit.** -/
theorem seconds_lt_of_ofText? {t : String} {s : Span} (h : ofText? t = some s) :
    s.seconds < countLimit := by
  simp only [ofText?] at h
  split at h
  · obtain rfl := Option.some.inj h
    decide
  · split at h
    · cases h
    · obtain ⟨⟨secs, nanos⟩, hsum, h⟩ := Option.bind_eq_some_iff.mp h
      obtain rfl := Option.some.inj h
      obtain ⟨hsecs, hnanos⟩ := isHeld_sum? ⟨by decide, by decide⟩ hsum
      have hpos : 0 < perSecond := by decide
      show (secs * perSecond + nanos) / perSecond < countLimit
      rw [Nat.add_comm, Nat.add_mul_div_right _ _ hpos, Nat.div_eq_of_lt hnanos, Nat.zero_add]
      exact hsecs

end Roundtable.Span
