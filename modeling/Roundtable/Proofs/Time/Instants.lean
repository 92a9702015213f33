import Roundtable.Proofs.Text.Numerals
import Roundtable.Proofs.Time.Dates
import Roundtable.Time.Instant

/-!
# Instants that are read back

An instant is written part by part, each on as many places as its reader takes, so **what is
read is what was written** (`Roundtable.Instant.ofText?_text`). One thing can be lost: a
second that was put in somewhere else than at the end of a minute is told as the second
behind it (`Roundtable.Instant.told`).
-/

namespace Roundtable

open Numeral

namespace Instant

variable {rest : List Char}

/-! ### Parts -/

/-- A number on the places that its reader takes is read, whatever stands behind it. -/
theorem number?_padded {w n : Nat} (hw : 0 < w) (h : n < 10 ^ w) (rest : List Char) :
    number? w (padded w n ++ rest) = some (n, rest) := by
  have hvalue := value_padded w n
  have hlength := length_padded hw h
  have hall := all_isDigit_padded w n
  obtain ⟨c, r, hcons, hc⟩ := exists_cons_padded w n
  rw [hcons] at hvalue hlength hall ⊢
  have hblank : ((c :: r) ++ rest).dropWhile isBlank = (c :: r) ++ rest := by
    simp [isBlank_of_isDigit hc]
  have htake : (c :: r).takeWhile isDigit = c :: r := by
    simpa using takeWhile_digits hall (show NoDigit [] from fun _ h => by cases h)
  rw [number?]
  simp only [hblank, ← hlength, List.take_left, htake, List.drop_left, List.isEmpty_cons,
    Bool.false_eq_true, if_false, hvalue]

theorem mark?_cons {c : Char} (h : isBlank c = false) (rest : List Char) :
    mark? c (c :: rest) = some rest := by
  simp [mark?, h]

/-- A year is read, with its sign if it has one. -/
theorem year?_yearText (year : Int) (hr : NoDigit rest) :
    year? (yearText year ++ rest) = some (year, rest) := by
  unfold yearText
  split
  · next h =>
    have hread := number?_padded (w := 4) (n := year.toNat) (by omega) (by omega) rest
    have hyear : ((year.toNat : Nat) : Int) = year := Int.toNat_of_nonneg h.1
    obtain ⟨c, r, hcons, hc⟩ := exists_cons_padded 4 year.toNat
    rw [hcons] at hread ⊢
    have hsign : ∀ d, isDigit d = false → ∀ q, c :: (r ++ rest) ≠ d :: q := by
      rintro d hd q heq
      rw [(List.cons_eq_cons.mp heq).1, hd] at hc
      cases hc
    unfold year?
    rw [List.cons_append, List.dropWhile_cons_of_neg (by simp [isBlank_of_isDigit hc])]
    split
    · next heq => exact absurd heq (hsign '-' rfl _)
    · next heq => exact absurd heq (hsign '+' rfl _)
    · rw [← List.cons_append, hread, Option.map_some]
      simp only [hyear]
  · next h =>
    have hall := all_isDigit_padded 4 year.natAbs
    have htake := takeWhile_digits hall hr
    have hdrop := dropWhile_digits hall hr
    have hvalue := value_padded 4 year.natAbs
    obtain ⟨c, r, hcons, hc⟩ := exists_cons_padded 4 year.natAbs
    rw [hcons] at htake hdrop hvalue ⊢
    rw [List.cons_append] at htake hdrop
    have hminus : isBlank '-' = false := rfl
    have hplus : isBlank '+' = false := rfl
    by_cases hneg : year < 0
    · have hyear : -1 * (year.natAbs : Int) = year := by omega
      simp only [if_pos hneg, List.cons_append, year?, List.dropWhile_cons, hminus,
        Bool.false_eq_true, if_false, hc, if_true, year?.signed, htake, hdrop, hvalue, hyear]
    · have hyear : 1 * (year.natAbs : Int) = year := by omega
      simp only [if_neg hneg, List.cons_append, year?, List.dropWhile_cons, hplus,
        Bool.false_eq_true, if_false, hc, if_true, year?.signed, htake, hdrop, hvalue, hyear]

/-- Digits behind the second tell nanoseconds, as many as there are places for. -/
theorem nanos?_padded {w n : Nat} (hw : 0 < w) (h9 : w ≤ 9) (h : n < 10 ^ w) (hr : NoDigit rest) :
    nanos? ('.' :: (padded w n ++ rest)) = some (n * 10 ^ (9 - w), rest) := by
  have hlength := length_padded hw h
  have hall := all_isDigit_padded w n
  have htake : ((padded w n ++ rest).take 9).takeWhile isDigit = padded w n := by
    rw [List.take_append, List.take_of_length_le (by omega)]
    refine takeWhile_digits hall fun c hc => hr c ?_
    rw [List.head?_take] at hc
    split at hc
    · cases hc
    · exact hc
  have hne : (padded w n).isEmpty = false := by simpa using padded_ne_nil w n
  simp only [nanos?, htake, hne, Bool.false_eq_true, if_false, value_padded, hlength,
    dropWhile_digits hall hr]

/-- **A fraction of a second is read back.** -/
theorem nanos?_fractionText {n : Nat} (h : n < Span.perSecond) (hr : NoDigit rest)
    (hpoint : rest.head? ≠ some '.') :
    nanos? (fractionText n ++ rest) = some (n, rest) := by
  rw [Span.perSecond] at h
  unfold fractionText
  split
  · next hzero =>
    unfold nanos?
    split
    · next heq => exact absurd (congrArg List.head? heq) hpoint
    · rw [hzero, List.nil_append]
  · split
    · next hmilli =>
      have hn : n / 1000000 * 10 ^ (9 - 3) = n := by omega
      rw [List.cons_append, nanos?_padded (by omega) (by omega) (by omega) hr, hn]
    · split
      · next hmicro =>
        have hn : n / 1000 * 10 ^ (9 - 6) = n := by omega
        rw [List.cons_append, nanos?_padded (by omega) (by omega) (by omega) hr, hn]
      · have hn : n * 10 ^ (9 - 9) = n := by omega
        rw [List.cons_append, nanos?_padded (by omega) (by omega) (by omega) hr, hn]

/-! ### Instants -/

/-- **An instant that a clock can show**: a date that exists, a second of its day, and less
than two seconds of nanoseconds. -/
structure IsSound (t : Instant) : Prop where
  date : (Date.ofDays t.days).isValid = true
  second : t.second < dayLength
  nanos : t.nanos < 2 * Span.perSecond

/-- **The instant that the text tells.** -/
def told (t : Instant) : Instant :=
  if Span.perSecond ≤ t.nanos ∧ t.second % 60 ≠ 59 then
    ⟨t.days, t.second + 1, t.nanos - Span.perSecond⟩
  else t

/-- Outside inserted seconds the text tells the instant. -/
theorem told_of_lt {t : Instant} (h : t.nanos < Span.perSecond) : t.told = t :=
  if_neg fun hn => by omega

theorem days_told (t : Instant) : t.told.days = t.days := by
  unfold told
  split <;> rfl

/-- The second that is told is one of the day. -/
theorem second_told_lt {t : Instant} (h : t.second < dayLength) : t.told.second < dayLength := by
  rw [dayLength] at h ⊢
  unfold told
  split
  · next hinserted =>
    dsimp only
    omega
  · exact h

/-- The parts of the text, put together. -/
theorem told_eq (t : Instant) {second nanos : Nat}
    (hs : second = t.second % 60 + (if Span.perSecond ≤ t.nanos then 1 else 0))
    (hn : nanos = if Span.perSecond ≤ t.nanos then t.nanos - Span.perSecond else t.nanos) :
    (⟨t.days, t.second / 3600 * 3600 + t.second % 3600 / 60 * 60 +
      (if second = 60 then 59 else second), nanos + (if second = 60 then Span.perSecond else 0)⟩ :
      Instant) = t.told := by
  obtain ⟨days, s, n⟩ := t
  dsimp only at hs hn ⊢
  by_cases hinserted : Span.perSecond ≤ n
  · rw [if_pos hinserted] at hs hn
    by_cases hlast : s % 60 = 59
    · rw [if_pos (by omega), if_pos (by omega), told, if_neg fun h => h.2 hlast, Instant.mk.injEq]
      omega
    · rw [if_neg (by omega), if_neg (by omega), told, if_pos ⟨hinserted, hlast⟩, Instant.mk.injEq]
      dsimp only
      omega
  · rw [if_neg hinserted] at hs hn
    rw [if_neg (by omega), if_neg (by omega), told, if_neg fun h => hinserted h.1,
      Instant.mk.injEq]
    omega

/-- Nothing is subtracted in universal time. -/
theorem addSeconds_zero {t : Instant} (h : t.second < dayLength) : t.addSeconds 0 = t := by
  rw [dayLength] at h
  have hdays : t.days + ((t.second : Int) + 0) / dayLength = t.days := by
    rw [dayLength]
    omega
  have hsecond : (((t.second : Int) + 0) % dayLength).toNat = t.second := by
    rw [dayLength]
    omega
  simp only [addSeconds, hdays, hsecond]

/-- **An instant is read as its text tells it.** -/
theorem ofText?_text {t : Instant} (h : t.IsSound) : ofText? t.text = some t.told := by
  obtain ⟨hdate, hsecond, hnanos⟩ := h
  obtain ⟨⟨hm0, hm1⟩, hd0, hd1⟩ := Date.ofDays_bounds t.days
  have hd2 := Nat.le_trans hd1 (Date.monthLength_le _ _)
  rw [dayLength] at hsecond
  obtain ⟨nanos, hn⟩ : ∃ n, n = if Span.perSecond ≤ t.nanos then t.nanos - Span.perSecond
    else t.nanos := ⟨_, rfl⟩
  obtain ⟨second, hs⟩ : ∃ s, s = t.second % 60 +
    (if Span.perSecond ≤ t.nanos then 1 else 0) := ⟨_, rfl⟩
  have hnlt : nanos < Span.perSecond := by
    rw [hn]
    split <;> omega
  have hslt : second ≤ 60 := by
    rw [hs]
    split <;> omega
  have hlocal : (t.localText ++ ['Z']) =
      yearText (Date.ofDays t.days).year ++ ('-' :: (padded 2 (Date.ofDays t.days).month ++
      ('-' :: (padded 2 (Date.ofDays t.days).day ++ ('T' :: (padded 2 (t.second / 3600) ++
      (':' :: (padded 2 (t.second % 3600 / 60) ++ (':' :: (padded 2 second ++
      (fractionText nanos ++ ['Z']))))))))))) := by
    simp [localText, hs, hn]
  have hnodigit {c : Char} {r : List Char} (hc : isDigit c = false) : NoDigit (c :: r) :=
    noDigit_cons.mpr hc
  have hminus : isBlank '-' = false := rfl
  have hcolon : isBlank ':' = false := rfl
  rw [ofText?, text, String.toList_ofList, hlocal]
  simp only [year?_yearText _ (hnodigit (show isDigit '-' = false from rfl)),
    number?_padded (w := 2) (n := (Date.ofDays t.days).month) (by omega) (by omega),
    number?_padded (w := 2) (n := (Date.ofDays t.days).day) (by omega) (by omega),
    number?_padded (w := 2) (n := t.second / 3600) (by omega) (by omega),
    number?_padded (w := 2) (n := t.second % 3600 / 60) (by omega) (by omega),
    number?_padded (w := 2) (n := second) (by omega) (by omega),
    mark?_cons hminus, mark?_cons hcolon,
    nanos?_fractionText hnlt (hnodigit (show isDigit 'Z' = false from rfl))
      (show ['Z'].head? ≠ some '.' by decide),
    bind, Option.bind]
  have htold := told_eq t hs hn
  have hdays : (Date.ofDays t.days).toDays = t.days := Date.toDays_ofDays t.days
  have hclock : (decide (t.second / 3600 < 24) && decide (t.second % 3600 / 60 < 60) &&
      decide (second ≤ 60)) = true := by
    simp only [Bool.and_eq_true, decide_eq_true_eq]
    omega
  rw [Bool.and_eq_true, Bool.and_eq_true] at hclock
  have hzulu : offset? (['Z'].dropWhile isBlank) = some (0, []) := rfl
  simp only [hzulu, Int.neg_zero]
  rw [hdays, htold, addSeconds_zero (second_told_lt hsecond), days_told, hdate, hclock.1.1,
    hclock.1.2, hclock.2]
  rfl

/-! ### Years of four digits -/

/-- **An instant outside inserted seconds.** -/
structure IsRegular (t : Instant) : Prop where
  date : (Date.ofDays t.days).isValid = true
  second : t.second < dayLength
  nanos : t.nanos < Span.perSecond

/-- The years that are written with four digits are years a time can have. -/
theorem isRegular_of_year {t : Instant} (hyear : 0 ≤ (Date.ofDays t.days).year)
    (hyear' : (Date.ofDays t.days).year ≤ 9999) (hs : t.second < dayLength)
    (hn : t.nanos < Span.perSecond) : t.IsRegular := by
  refine ⟨?_, hs, hn⟩
  have hbounds := Date.ofDays_bounds t.days
  simp only [Date.isValid, Bool.and_eq_true, decide_eq_true_eq]
  omega

/-- **An instant outside inserted seconds is read as itself.** -/
theorem IsRegular.ofText?_text {t : Instant} (h : t.IsRegular) : ofText? t.text = some t := by
  rw [Instant.ofText?_text ⟨h.date, h.second, by have := h.nanos; omega⟩, told_of_lt h.nanos]

end Instant

end Roundtable
