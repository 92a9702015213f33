import Roundtable.Time.Calendar

/-!
# Days and dates

The date of a day exists, and it is the date of that day alone
(`Roundtable.Date.toDays_ofDays`). The year is counted from March, so a day is told by its
year, its month from March on and the days of the month in front of it
(`Roundtable.Date.exists_ofDays`); **what is left to arithmetic is which year of 400 a day
falls into** (`Roundtable.Date.exists_yearOfEra`). The quotient that answers it takes a day
away for every leap day in front, and is settled by centuries and by cycles of four years.
-/

namespace Roundtable.Date

/-! ### Years of an era -/

/-- A day of an era lies in a century, in a cycle of four years and in a year of it. Only
the last year of a cycle has a day more, and of a century only that of the last. -/
theorem exists_dayOfEra {n : Int} (h0 : 0 ≤ n) (h1 : n ≤ 146096) :
    ∃ c q t s : Int, n = 36524 * c + 1461 * q + 365 * t + s ∧
      (0 ≤ c ∧ c ≤ 3) ∧ (0 ≤ q ∧ q ≤ 24) ∧ (0 ≤ t ∧ t ≤ 3) ∧ 0 ≤ s ∧
      (s ≤ 364 ∨ s = 365 ∧ t = 3 ∧ (q = 24 → c = 3)) := by
  by_cases hl : n = 146096
  · exact ⟨3, 24, 3, 365, by omega⟩
  · by_cases hs : n % 36524 % 1461 = 1460
    · exact ⟨n / 36524, n % 36524 / 1461, 3, 365, by omega⟩
    · exact ⟨n / 36524, n % 36524 / 1461, n % 36524 % 1461 / 365, n % 36524 % 1461 % 365,
        by omega⟩

/-- The year of a day of an era. -/
theorem yearOfEra_eq {c q t s n : Int} (hn : n = 36524 * c + 1461 * q + 365 * t + s)
    (hc : 0 ≤ c ∧ c ≤ 3) (hq : 0 ≤ q ∧ q ≤ 24) (ht : 0 ≤ t ∧ t ≤ 3) (hs0 : 0 ≤ s)
    (hs : s ≤ 364 ∨ s = 365 ∧ t = 3 ∧ (q = 24 → c = 3)) :
    (n - n / 1460 + n / 36524 - n / 146096) / 365 = 100 * c + 4 * q + t := by
  -- Leap days make the quotient one too large only near the end of a cycle, where the rest
  -- is large enough to bear it.
  have hcycles : n / 1460 = 25 * c + q ∨
      (n / 1460 = 25 * c + q + 1 ∧ 1460 ≤ 24 * c + q + 365 * t + s) := by omega
  by_cases hl : n = 146096
  · omega
  · have hcenturies : n / 36524 = c := by omega
    have hera : n / 146096 = 0 := by omega
    rw [hcenturies, hera]
    rcases hcycles with hcycles | ⟨hcycles, hle⟩
    · rw [hcycles]
      omega
    · rw [hcycles]
      omega

/-- **A day of an era has a year and a place in it.** The place is below 365, or the last
one of a leap year. -/
theorem exists_yearOfEra {n : Int} (h0 : 0 ≤ n) (h1 : n ≤ 146096) :
    ∃ y s : Int, (n - n / 1460 + n / 36524 - n / 146096) / 365 = y ∧
      n = 365 * y + y / 4 - y / 100 + s ∧ (0 ≤ y ∧ y ≤ 399) ∧ 0 ≤ s ∧
      (s ≤ 364 ∨ s = 365 ∧ (y + 1) % 4 = 0 ∧ ((y + 1) % 100 = 0 → y = 399)) := by
  obtain ⟨c, q, t, s, hn, hc, hq, ht, hs0, hs⟩ := exists_dayOfEra h0 h1
  refine ⟨_, s, yearOfEra_eq hn hc hq ht hs0 hs, ?_⟩
  have hfour : (100 * c + 4 * q + t) / 4 = 25 * c + q := by omega
  have hhundred : (100 * c + 4 * q + t) / 100 = c := by omega
  rw [hfour, hhundred]
  omega

theorem isLeapYear_iff {y : Int} :
    isLeapYear y = true ↔ y % 4 = 0 ∧ (y % 100 = 0 → y % 400 = 0) := by
  simp only [isLeapYear, Bool.and_eq_true, beq_iff_eq, Bool.or_eq_true, bne_iff_ne]
  omega

/-! ### Dates -/

/-- **The date of a day** is its year from March on, its month in that year and the days in
front of it in that month. -/
theorem exists_ofDays (days : Int) : ∃ year m d : Int,
    ofDays days = ⟨if m < 10 then year else year + 1, (if m < 10 then m + 3 else m - 9).toNat,
      (d + 1).toNat⟩ ∧
    days = 365 * year + year / 4 - year / 100 + year / 400 + (153 * m + 2) / 5 + d - 719468 ∧
    (0 ≤ m ∧ m ≤ 11) ∧ (0 ≤ d ∧ d ≤ 30) ∧ (m = 1 ∨ m = 3 ∨ m = 6 ∨ m = 8 → d ≤ 29) ∧
    (m = 11 → d ≤ 27 ∨ d = 28 ∧ isLeapYear (year + 1)) := by
  obtain ⟨era, hera⟩ : ∃ era, era = (days + 719468) / 146097 := ⟨_, rfl⟩
  obtain ⟨y, s, hy, hn, hy01, hs0, hs⟩ := exists_yearOfEra
    (n := days + 719468 - era * 146097) (by omega) (by omega)
  have hday : days + 719468 - era * 146097 - (365 * y + y / 4 - y / 100) = s := by omega
  obtain ⟨m, hm⟩ : ∃ m, m = (5 * s + 2) / 153 := ⟨_, rfl⟩
  have hm01 : 0 ≤ m ∧ m ≤ 11 := by omega
  refine ⟨y + era * 400, m, s - (153 * m + 2) / 5, ?_, ?_, hm01, by omega, by omega, ?_⟩
  · simp only [ofDays, ← hera, hy, hday, ← hm]
    congr 1
    split <;> split <;> omega
  · have hfour : (y + era * 400) / 4 = y / 4 + era * 100 := by omega
    have hhundred : (y + era * 400) / 100 = y / 100 + era * 4 := by omega
    have hfourHundred : (y + era * 400) / 400 = era := by omega
    rw [hfour, hhundred, hfourHundred]
    omega
  · rw [isLeapYear_iff]
    omega

/-- **The date of a day is the date of that day alone.** -/
theorem toDays_ofDays (days : Int) : (ofDays days).toDays = days := by
  obtain ⟨year, m, d, hdate, hdays, hm, hd, -, -⟩ := exists_ofDays days
  rw [hdate, toDays]
  by_cases hlt : m < 10
  · simp only [if_pos hlt]
    omega
  · simp only [if_neg hlt]
    omega

/-- **The date of a day exists.** -/
theorem ofDays_bounds (days : Int) :
    (1 ≤ (ofDays days).month ∧ (ofDays days).month ≤ 12) ∧ 1 ≤ (ofDays days).day ∧
      (ofDays days).day ≤ monthLength (ofDays days).year (ofDays days).month := by
  obtain ⟨year, m, d, hdate, -, hm, hd, hshort, hlast⟩ := exists_ofDays days
  rw [hdate]
  by_cases hlt : m < 10
  · simp only [if_pos hlt, monthLength]
    split
    · omega
    · split <;> omega
  · simp only [if_neg hlt, monthLength]
    split
    · split
      · omega
      · next hleap =>
        rcases hlast (by omega) with hd | ⟨-, hleap'⟩
        · omega
        · exact absurd hleap' hleap
    · split <;> omega

/-- No month is longer than what two digits hold. -/
theorem monthLength_le (year : Int) (month : Nat) : monthLength year month ≤ 31 := by
  unfold monthLength
  split
  · split <;> omega
  · split <;> omega

end Roundtable.Date
