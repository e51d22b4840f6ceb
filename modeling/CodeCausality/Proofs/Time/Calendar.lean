import Mathlib.Data.Nat.Basic
import CodeCausality.Time.Instant

/-!
# Days and dates

Counting the days to a date and finding the date of a day:

* `InEra` -- where a day of an era of 400 years stands: in which century, in which cycle of four
  years, in which year of the cycle, and on which day of that year;
* `exists_inEra`, `InEra.yearOfEra_eq` -- every day stands somewhere, and the divisions of `dateOf`
  find its year, although the leap days make years, cycles and centuries of unequal length;
* `isValid_dateOf` -- **the date of a day is one of the calendar**;
* `daysOf_dateOf` -- **and counting to that date gives the day.**
-/

namespace CodeCausality

/-! ## 1. The days of an era -/

/-- Day `n` of an era is day `d` of a year. Years begin in March, so that a leap day is the last day
of its year; the last cycle of a century has none, unless it is the last of the era. -/
structure InEra (n c q r d : Nat) : Prop where
  century : c ≤ 3
  cycle : q ≤ 24
  year : r ≤ 3
  day : d ≤ 365
  split : n = 36524 * c + 1461 * q + 365 * r + d
  leap : d = 365 → r = 3 ∧ (q = 24 → c = 3)

theorem exists_inEra {n : Nat} (h : n < 146097) : ∃ c q r d, InEra n c q r d := by
  -- the last day of an era belongs to its fourth century, that of a cycle to its fourth year
  have hcentury : ∃ c m, c ≤ 3 ∧ n = 36524 * c + m ∧ (m < 36524 ∨ m = 36524 ∧ c = 3) := by
    by_cases hn : n = 146096
    · exact ⟨3, 36524, by omega, by omega, by omega⟩
    · exact ⟨n / 36524, n % 36524, by omega, by omega, by omega⟩
  obtain ⟨c, m, hc, hm, hlast⟩ := hcentury
  have hyear : ∃ r d, r ≤ 3 ∧ m % 1461 = 365 * r + d ∧ (d < 365 ∨ d = 365 ∧ r = 3) := by
    by_cases hp : m % 1461 = 1460
    · exact ⟨3, 365, by omega, by omega, by omega⟩
    · exact ⟨m % 1461 / 365, m % 1461 % 365, by omega, by omega, by omega⟩
  obtain ⟨r, d, hr, hd, hleap⟩ := hyear
  exact ⟨c, m / 1461, r, d, hc, by omega, hr, by omega, by omega, by omega⟩

namespace InEra

variable {n c q r d : Nat}

/-- The divisions of `dateOf` find the year. -/
theorem yearOfEra_eq (h : InEra n c q r d) :
    (n - n / 1460 + n / 36524 - n / 146096) / 365 = 100 * c + 4 * q + r := by
  obtain ⟨hc, hq, hr, hd, hn, hleap⟩ := h
  have hcentury : n / 36524 - n / 146096 = c ∧ n / 146096 ≤ n / 36524 := by omega
  have hcycle : n / 1460 = 25 * c + q ∧ d < 365 ∨ n / 1460 = 25 * c + q + 1 ∧ 0 < d := by omega
  omega

theorem dayOfYear_eq (h : InEra n c q r d) {y : Nat} (hy : y = 100 * c + 4 * q + r) :
    n - (365 * y + y / 4 - y / 100) = d := by
  obtain ⟨hc, hq, hr, -, hn, -⟩ := h
  have h100 : y / 100 = c := by omega
  have h4 : y / 4 = 25 * c + q := by omega
  omega

end InEra

/-! ## 2. The days of a year -/

/-- The date of a day of a year that begins in March; January and February belong to the next
year. -/
def Date.ofMarch (year : Int) (dayOfYear : Nat) : Date :=
  let month := (5 * dayOfYear + 2) / 153
  let shown := if month < 10 then month + 3 else month - 9
  ⟨if shown ≤ 2 then year + 1 else year, shown, dayOfYear - (153 * month + 2) / 5 + 1⟩

theorem daysOf_ofMarch {d : Nat} (hd : d ≤ 365) (year : Int) :
    daysOf (.ofMarch year d) = year / 400 * 146097
      + ((year - year / 400 * 400) * 365 + (year - year / 400 * 400) / 4
        - (year - year / 400 * 400) / 100 + d) - 719468 := by
  have hmonth : (5 * d + 2) / 153 ≤ 11 := by omega
  -- the year that the days are counted in is the given one, whichever year is shown
  have hyear : (if (Date.ofMarch year d).month ≤ 2 then (Date.ofMarch year d).year - 1
      else (Date.ofMarch year d).year) = year := by
    have hshown : (Date.ofMarch year d).year =
        if (Date.ofMarch year d).month ≤ 2 then year + 1 else year := rfl
    rw [hshown]
    by_cases hm : (Date.ofMarch year d).month ≤ 2 <;> simp [hm]
  have hfrom : ((Date.ofMarch year d).month + 9) % 12 = (5 * d + 2) / 153 := by
    unfold Date.ofMarch
    dsimp only
    split <;> omega
  have hday : (153 * ((5 * d + 2) / 153) + 2) / 5 + (Date.ofMarch year d).day - 1 = d := by
    unfold Date.ofMarch
    dsimp only
    omega
  unfold daysOf
  simp only [hyear, hfrom, hday]

theorem isLeapYear_iff (y : Int) :
    isLeapYear y = true ↔ y % 4 = 0 ∧ (y % 100 ≠ 0 ∨ y % 400 = 0) := by
  simp [isLeapYear]

/-- A year that begins in March has a last day for the leap day if February falls in a leap
year. -/
theorem isValid_ofMarch {d : Nat} {year : Int} (hd : d ≤ 365)
    (hleap : d = 365 → isLeapYear (year + 1) = true) : (Date.ofMarch year d).isValid = true := by
  have hmonth : (5 * d + 2) / 153 ≤ 11 := by omega
  unfold Date.isValid Date.ofMarch daysInMonth
  dsimp only
  simp only [Bool.and_eq_true, decide_eq_true_eq]
  refine ⟨⟨⟨?_, ?_⟩, by omega⟩, ?_⟩
  · split <;> omega
  · split <;> omega
  · by_cases hfeb : (5 * d + 2) / 153 = 11
    · -- February: 29 days in a leap year, and only there is it the last day
      simp only [hfeb]
      by_cases hl : isLeapYear (year + 1) = true
      · simp [hl]
        omega
      · have hne : d ≠ 365 := fun h => hl (hleap h)
        simp [hl]
        omega
    · repeat' split
      all_goals omega

/-! ## 3. All days -/

/-- Every day is a day of a year of an era. -/
theorem exists_ofMarch (days : Int) : ∃ (era : Int) (n c q r d : Nat), InEra n c q r d ∧
    days + 719468 = era * 146097 + n ∧
      dateOf days = .ofMarch ((100 * c + 4 * q + r : Nat) + era * 400) d := by
  have hn : ((days + 719468) - (days + 719468) / 146097 * 146097).toNat < 146097 := by omega
  obtain ⟨c, q, r, d, h⟩ := exists_inEra hn
  refine ⟨(days + 719468) / 146097, _, c, q, r, d, h, by omega, ?_⟩
  unfold dateOf
  simp only [h.yearOfEra_eq, h.dayOfYear_eq rfl]
  rfl

/-- **The date of a day is one of the calendar.** -/
theorem isValid_dateOf (days : Int) : (dateOf days).isValid = true := by
  obtain ⟨era, n, c, q, r, d, h, -, hdate⟩ := exists_ofMarch days
  rw [hdate]
  refine isValid_ofMarch h.day fun hd => (isLeapYear_iff _).mpr ?_
  have hleap := h.leap hd
  have hq := h.cycle
  have hc := h.century
  omega

/-- **Counting the days to the date of a day gives the day.** -/
theorem daysOf_dateOf (days : Int) : daysOf (dateOf days) = days := by
  obtain ⟨era, n, c, q, r, d, ⟨hc, hq, hr, hd, hn, -⟩, hdays, hdate⟩ := exists_ofMarch days
  rw [hdate, daysOf_ofMarch hd]
  omega

end CodeCausality
