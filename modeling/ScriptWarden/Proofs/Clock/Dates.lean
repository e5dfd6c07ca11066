import Mathlib.Tactic.IntervalCases
import ScriptWarden.Clock.Date

/-!
# Days and dates

The calendar repeats after an era of 400 years, which are 146097 days. Years begin in March here, so
that a leap day is the last day of its year. The year of a day is found by a quotient that corrects
for leap days; it never falls from one day to the next, and it is right on the first day of each of
the 400 years and on the day before. That decides all days in between.

## Results

* `yearAt_mono`, `yearAt_yearStart` — the quotient, and `yearStart_le`, `lt_yearStart` — what it
  says.
* `toDays_ofDays` — the days up to the date of a day are that day.
* `isValid_ofDays` — the date of a day is one.
-/

namespace ScriptWarden

namespace Date

-- ---------------------------------------------------------------------------
-- Years of an era
-- ---------------------------------------------------------------------------

/-- The days of an era before a year. -/
def yearStart (y : Int) : Int := 365 * y + y / 4 - y / 100

/-- The year of a day of an era. -/
def yearAt (day : Int) : Int := (day - day / 1460 + day / 36524 - day / 146096) / 365

theorem yearAt_mono {a b : Int} (h : a ≤ b) : yearAt a ≤ yearAt b := by
  refine Int.ediv_le_ediv (by decide) ?_
  -- 146096 is four times 36524, so that the last quotient grows only with the one before
  have hDays : a - a / 1460 ≤ b - b / 1460 := by omega
  have hCenturies : a / 36524 - a / 146096 ≤ b / 36524 - b / 146096 := by omega
  omega

/-- On the first day of a year the quotient is that year, and on the day before it is not. -/
theorem yearAt_yearStart {y : Int} (h : 0 ≤ y) (h' : y < 400) :
    yearAt (yearStart y) = y ∧ (0 < y → yearAt (yearStart y - 1) < y) := by
  have hAll : ∀ y : Fin 400, yearAt (yearStart y.val) = y.val ∧
      (0 < y.val → yearAt (yearStart y.val - 1) < y.val) := by decide +kernel
  obtain ⟨n, rfl⟩ := Int.eq_ofNat_of_zero_le h
  simpa using hAll ⟨n, by omega⟩

theorem yearAt_bounds {day : Int} (h : 0 ≤ day) (h' : day < 146097) :
    0 ≤ yearAt day ∧ yearAt day < 400 := by
  rw [yearAt]
  omega

/-- A day lies in its year. -/
theorem yearStart_le {day : Int} (h : 0 ≤ day) (h' : day < 146097) :
    yearStart (yearAt day) ≤ day := by
  obtain ⟨hFirst, hLast⟩ := yearAt_bounds h h'
  by_cases hZero : yearAt day = 0
  · rw [hZero]
    exact h
  by_contra hBefore
  have hEarlier := yearAt_mono (show day ≤ yearStart (yearAt day) - 1 by omega)
  have hLess := (yearAt_yearStart hFirst hLast).2 (by omega)
  omega

theorem lt_yearStart {day : Int} (h : 0 ≤ day) (h' : day < 146097) (hYear : yearAt day < 399) :
    day < yearStart (yearAt day + 1) := by
  obtain ⟨hFirst, -⟩ := yearAt_bounds h h'
  by_contra hAfter
  have hLater := yearAt_mono (show yearStart (yearAt day + 1) ≤ day by omega)
  have := (yearAt_yearStart (show 0 ≤ yearAt day + 1 by omega) (by omega)).1
  omega

-- ---------------------------------------------------------------------------
-- Dates
-- ---------------------------------------------------------------------------

/-- The date of a day of a year of an era. -/
def ofYearDay (era year day : Int) : Date :=
  let monthFromMarch := (5 * day + 2) / 153
  let month := if monthFromMarch < 10 then monthFromMarch + 3 else monthFromMarch - 9
  { year := if month ≤ 2 then year + era * 400 + 1 else year + era * 400
    month := month.toNat
    day := (day - (153 * monthFromMarch + 2) / 5 + 1).toNat }

theorem ofDays_eq (n : Int) :
    ofDays n =
      let day := (n + 719468) % 146097
      ofYearDay ((n + 719468) / 146097) (yearAt day) (day - yearStart (yearAt day)) := by
  have hDay : n + 719468 - (n + 719468) / 146097 * 146097 = (n + 719468) % 146097 := by omega
  simp (disch := decide) only [ofDays, Int.fdiv_eq_ediv_of_nonneg, hDay]
  rfl

/-- The month of a day of a year, counted from March on, and the day of that month. The first ten
months are of the same year by the calendar, the others of the next one. -/
theorem ofYearDay_cases (era year : Int) {day : Int} (h : 0 ≤ day) (h' : day < 366) :
    ∃ month dayBefore : Nat, day = ((153 * month + 2) / 5 + dayBefore : Nat) ∧
      day < ((153 * (month + 1) + 2) / 5 : Nat) ∧
      (month < 10 ∧ ofYearDay era year day = ⟨year + era * 400, month + 3, dayBefore + 1⟩ ∨
        10 ≤ month ∧ month < 12 ∧
          ofYearDay era year day = ⟨year + era * 400 + 1, month - 9, dayBefore + 1⟩) := by
  obtain ⟨n, rfl⟩ := Int.eq_ofNat_of_zero_le h
  obtain ⟨month, hMonth⟩ : ∃ month : Nat, (5 * (n : Int) + 2) / 153 = month :=
    ⟨(5 * n + 2) / 153, by omega⟩
  obtain ⟨before, hBefore⟩ : ∃ before : Nat, (n : Int) - (153 * month + 2) / 5 = before :=
    ⟨n - (153 * month + 2) / 5, by omega⟩
  refine ⟨month, before, by omega, by omega, ?_⟩
  simp only [ofYearDay, hMonth, hBefore, Date.mk.injEq]
  omega

/-- The days up to the date of a day of a year. -/
theorem toDays_ofYearDay (era : Int) {year day : Int} (hYear : 0 ≤ year) (hYear' : year < 400)
    (hDay : 0 ≤ day) (hDay' : day < 366) :
    (ofYearDay era year day).toDays = era * 146097 + yearStart year + day - 719468 := by
  have hEra : (year + era * 400) / 400 = era := by omega
  have hYearOfEra : year + era * 400 - era * 400 = year := by omega
  obtain ⟨month, before, hMonth, -, ⟨hEarly, hDate⟩ | ⟨hLate, hLate', hDate⟩⟩ :=
    ofYearDay_cases era year hDay hDay'
  · have hFromMarch : (((month + 3 : Nat) : Int) + 9) % 12 = month := by omega
    simp (disch := decide) only [hDate, toDays, Int.fdiv_eq_ediv_of_nonneg, hFromMarch,
      if_neg (show ¬ month + 3 ≤ 2 by omega), hEra, hYearOfEra]
    rw [yearStart]
    omega
  · have hFromMarch : (((month - 9 : Nat) : Int) + 9) % 12 = month := by omega
    simp (disch := decide) only [hDate, toDays, Int.fdiv_eq_ediv_of_nonneg, hFromMarch,
      if_pos (show month - 9 ≤ 2 by omega), Int.add_sub_cancel, hEra, hYearOfEra]
    rw [yearStart]
    omega

/-- The days of a month that is counted from March on and is not the last one of its year. -/
theorem daysInMonth_fromMarch (y : Int) {month : Nat} (h : month < 11) :
    daysInMonth y (if month < 10 then month + 3 else month - 9) =
      (153 * (month + 1) + 2) / 5 - (153 * month + 2) / 5 := by
  interval_cases month <;> rfl

/-- A year that is not a leap year by the calendar has 365 days from March on, the year after. -/
theorem yearStart_succ_le (era : Int) {year : Int} (hYear : 0 ≤ year) (hYear' : year < 400)
    (h : isLeapYear (year + era * 400 + 1) = false) :
    year < 399 ∧ yearStart (year + 1) ≤ yearStart year + 365 := by
  simp only [isLeapYear, Bool.and_eq_false_iff, Bool.or_eq_false_iff, beq_eq_false_iff_ne,
    bne_eq_false_iff_eq] at h
  simp only [yearStart]
  omega

theorem isValid_ofYearDay (era : Int) {year day : Int} (hYear : 0 ≤ year) (hYear' : year < 400)
    (hDay : 0 ≤ day) (hDay' : day < 366)
    (hLast : year < 399 → yearStart year + day < yearStart (year + 1)) :
    (ofYearDay era year day).isValid = true := by
  obtain ⟨month, before, hMonth, hNext, ⟨hEarly, hDate⟩ | ⟨hLate, hLate', hDate⟩⟩ :=
    ofYearDay_cases era year hDay hDay'
  · have hDays := @daysInMonth_fromMarch (year + era * 400) month (by omega)
    rw [if_pos hEarly] at hDays
    simp only [hDate, isValid, hDays, Bool.and_eq_true, decide_eq_true_eq]
    omega
  · by_cases hJanuary : month < 11
    · have hDays := daysInMonth_fromMarch (year + era * 400 + 1) hJanuary
      rw [if_neg (by omega)] at hDays
      simp only [hDate, isValid, hDays, Bool.and_eq_true, decide_eq_true_eq]
      omega
    · obtain rfl : month = 11 := by omega
      have hDays : before + 1 ≤ daysInMonth (year + era * 400 + 1) (11 - 9) := by
        rw [daysInMonth, if_pos (beq_self_eq_true 2)]
        split
        · omega
        · next hCommon =>
          obtain ⟨hInside, hShort⟩ := yearStart_succ_le era hYear hYear' (by simpa using hCommon)
          have hBefore := hLast hInside
          omega
      simp only [hDate, isValid, Bool.and_eq_true, decide_eq_true_eq]
      omega

-- ---------------------------------------------------------------------------
-- All days
-- ---------------------------------------------------------------------------

/-- What is known of a day within its era and its year. -/
theorem day_cases (n : Int) :
    ∃ era year day : Int, ofDays n = ofYearDay era year day ∧
      n = era * 146097 + yearStart year + day - 719468 ∧ (0 ≤ year ∧ year < 400) ∧
      (0 ≤ day ∧ day < 366) ∧ (year < 399 → yearStart year + day < yearStart (year + 1)) := by
  have hDay : 0 ≤ (n + 719468) % 146097 := by omega
  have hDay' : (n + 719468) % 146097 < 146097 := by omega
  have hYear := yearAt_bounds hDay hDay'
  have hStart := yearStart_le hDay hDay'
  have hEnd := lt_yearStart hDay hDay'
  refine ⟨_, _, _, ofDays_eq n, ?_, hYear, ⟨by omega, ?_⟩, fun hInside => ?_⟩
  · omega
  · by_cases hInside : yearAt ((n + 719468) % 146097) < 399
    · have hLess := hEnd hInside
      simp only [yearStart] at hLess ⊢
      omega
    · have hLastYear : yearAt ((n + 719468) % 146097) = 399 := by omega
      rw [hLastYear, yearStart]
      omega
  · have hLess := hEnd hInside
    omega

/-- **Days and dates.** The days up to the date of a day are that day. -/
theorem toDays_ofDays (n : Int) : (ofDays n).toDays = n := by
  obtain ⟨era, year, day, hDate, hDays, hYear, hDay, -⟩ := day_cases n
  rw [hDate, toDays_ofYearDay era hYear.1 hYear.2 hDay.1 hDay.2, hDays]

/-- The date of a day is one of the calendar. -/
theorem isValid_ofDays (n : Int) : (ofDays n).isValid = true := by
  obtain ⟨era, year, day, hDate, -, hYear, hDay, hLast⟩ := day_cases n
  rw [hDate]
  exact isValid_ofYearDay era hYear.1 hYear.2 hDay.1 hDay.2 hLast

end Date

end ScriptWarden
