import Mathlib.Order.Fin.Basic
import Mathlib.Data.Int.Order.Lemmas
import Mathlib.Tactic.IntervalCases

/-! The proleptic Gregorian calendar on days counted from 1970-01-01. A year begins on
the first of March here, so that its leap day is the last one, and 400 years are an era
of 146097 days. -/
namespace Argentum.Calendar

/-- The day of the month of a day counted from 1970-01-01. -/
def dayOfMonth (day : Int) : Int :=
  let dayOfEra := (day + 719468) % 146097
  let yearOfEra := (dayOfEra - dayOfEra / 1460 + dayOfEra / 36524 - dayOfEra / 146096) / 365
  let dayOfYear := dayOfEra - (365 * yearOfEra + yearOfEra / 4 - yearOfEra / 100)
  let month := (5 * dayOfYear + 2) / 153
  dayOfYear - (153 * month + 2) / 5 + 1

example : [0, 58, 59, 11016, 20000].map dayOfMonth = [1, 28, 1, 29, 4] := by decide

/-- The day of an era of 400 years, counted from the first of March. -/
def dayOfEra (day : Int) : Int := (day + 719468) % 146097

/-- The days of an era up to a day, without the leap days. -/
def yearDays (day : Int) : Int := day - day / 1460 + day / 36524 - day / 146096

/-- The day of the era that a year begins on. -/
def yearStart (year : Int) : Int := 365 * year + year / 4 - year / 100

def monthDay (dayOfYear : Int) : Int := dayOfYear - (153 * ((5 * dayOfYear + 2) / 153) + 2) / 5 + 1

theorem dayOfMonth_eq (day : Int) : dayOfMonth day =
    monthDay (dayOfEra day - yearStart (yearDays (dayOfEra day) / 365)) := rfl

theorem one_le_monthDay (dayOfYear : Int) : 1 ≤ monthDay dayOfYear := by
  unfold monthDay
  omega

theorem monthDay_succ_le (dayOfYear : Int) : monthDay (dayOfYear + 1) ≤ monthDay dayOfYear + 1 := by
  unfold monthDay
  omega

theorem yearDays_mono {first second : Int} (ordered : first ≤ second) : yearDays first ≤ yearDays second := by
  unfold yearDays
  omega

theorem yearDays_yearStart : ∀ year : Fin 400, 0 < year.val →
    365 * (year.val : Int) ≤ yearDays (yearStart year.val) ∧ yearDays (yearStart year.val - 1) < 365 * year.val := by
  decide +kernel

/-- A day of the era is in a year no earlier than it is the year's first. -/
theorem yearStart_le_iff {day year : Int} (low : 0 < year) (high : year < 400) :
    yearStart year ≤ day ↔ year ≤ yearDays day / 365 := by
  have bounds := yearDays_yearStart ⟨year.toNat, by omega⟩ (show 0 < year.toNat by omega)
  have same : ((year.toNat : Nat) : Int) = year := Int.toNat_of_nonneg low.le
  rw [same] at bounds
  constructor
  · intro begun
    have later := yearDays_mono begun
    omega
  · intro reached
    by_contra before
    have earlier := yearDays_mono (show day ≤ yearStart year - 1 by omega)
    omega

theorem dayOfMonth_succ_le (day : Int) : dayOfMonth (day + 1) ≤ dayOfMonth day + 1 := by
  have one := one_le_monthDay (dayOfEra day - yearStart (yearDays (dayOfEra day) / 365))
  rw [dayOfMonth_eq, dayOfMonth_eq]
  have range : 0 ≤ dayOfEra day ∧ dayOfEra day ≤ 146096 := by
    unfold dayOfEra
    omega
  by_cases last : dayOfEra day = 146096
  · -- an era ends, and the next one begins with a month
    have first : dayOfEra (day + 1) = 0 := by
      unfold dayOfEra at last ⊢
      omega
    rw [first, show monthDay (0 - yearStart (yearDays 0 / 365)) = 1 from rfl]
    omega
  · have next : dayOfEra (day + 1) = dayOfEra day + 1 := by
      unfold dayOfEra at last ⊢
      omega
    rw [next]
    generalize dayOfEra day = doe at *
    have low : 0 ≤ yearDays doe / 365 ∧ yearDays (doe + 1) / 365 < 400 := by
      unfold yearDays
      omega
    have ordered : yearDays doe / 365 ≤ yearDays (doe + 1) / 365 :=
      Int.ediv_le_ediv (by decide) (yearDays_mono (by omega))
    rcases ordered.eq_or_lt with same | later
    · rw [← same, show doe + 1 - yearStart (yearDays doe / 365) = doe - yearStart (yearDays doe / 365) + 1 by omega]
      exact monthDay_succ_le _
    · -- a year begins, and a month with it
      have begun := (yearStart_le_iff (by omega) low.2).mpr (le_refl (yearDays (doe + 1) / 365))
      have notYet : ¬ yearStart (yearDays (doe + 1) / 365) ≤ doe :=
        fun already => absurd ((yearStart_le_iff (by omega) low.2).mp already) later.not_ge
      rw [show doe + 1 - yearStart (yearDays (doe + 1) / 365) = 0 by omega]
      have first : monthDay 0 = 1 := rfl
      omega

/-- The first day of the month of a day. -/
def firstOfMonth (day : Int) : Int := day - (dayOfMonth day - 1)

theorem firstOfMonth_le (day : Int) : firstOfMonth day ≤ day := by
  have one := one_le_monthDay (dayOfEra day - yearStart (yearDays (dayOfEra day) / 365))
  rw [← dayOfMonth_eq] at one
  unfold firstOfMonth
  omega

/-- A later day is in no earlier month. -/
theorem firstOfMonth_mono {first second : Int} (ordered : first ≤ second) :
    firstOfMonth first ≤ firstOfMonth second := by
  obtain ⟨days, rfl⟩ := Int.le.dest ordered
  induction days with
  | zero => simp
  | succ days ih =>
      refine (ih (Int.le_add_of_nonneg_right (Int.natCast_nonneg days))).trans ?_
      have next := dayOfMonth_succ_le (first + days)
      rw [add_assoc] at next
      unfold firstOfMonth
      push_cast
      omega

def yearOfEra (day : Int) : Int := yearDays (dayOfEra day) / 365

def dayOfYear (day : Int) : Int := dayOfEra day - yearStart (yearOfEra day)

/-- The month that a day of the year is in, counted from March. -/
def monthOfYear (dayOfYear : Int) : Int := (5 * dayOfYear + 2) / 153

/-- The month of a day, from 1 to 12. -/
def civilMonth (day : Int) : Int :=
  let month := monthOfYear (dayOfYear day)
  if month < 10 then month + 3 else month - 9

/-- The year of a day. Its January and its February are in the year that began in March before. -/
def civilYear (day : Int) : Int :=
  (day + 719468) / 146097 * 400 + yearOfEra day + if civilMonth day ≤ 2 then 1 else 0

example : [-1, 0, 58, 59, 11016, 20000].map (fun day => (civilYear day, civilMonth day, dayOfMonth day)) =
    [(1969, 12, 31), (1970, 1, 1), (1970, 2, 28), (1970, 3, 1), (2000, 2, 29), (2024, 10, 4)] := by decide

/-- The day of a date. -/
def dayNumber (year month dayOfMonth : Int) : Int :=
  let year := if month ≤ 2 then year - 1 else year
  let month := if month ≤ 2 then month + 9 else month - 3
  year / 400 * 146097 + yearStart (year % 400) + (153 * month + 2) / 5 + dayOfMonth - 1 - 719468

theorem dayOfMonth_eq_monthDay (day : Int) : dayOfMonth day = monthDay (dayOfYear day) := rfl

theorem yearOfEra_range (day : Int) : 0 ≤ yearOfEra day ∧ yearOfEra day < 400 := by
  unfold yearOfEra yearDays dayOfEra
  omega

theorem dayOfYear_range (day : Int) : 0 ≤ dayOfYear day ∧ dayOfYear day ≤ 365 := by
  have range : 0 ≤ dayOfEra day ∧ dayOfEra day ≤ 146096 := by
    unfold dayOfEra
    omega
  obtain ⟨low, high⟩ := yearOfEra_range day
  unfold dayOfYear
  constructor
  · rcases low.eq_or_lt with first | later
    · rw [← first, show yearStart 0 = 0 from rfl]
      omega
    · have begun := (yearStart_le_iff later high).mpr (le_refl (yearOfEra day))
      omega
  · by_cases last : yearOfEra day = 399
    · rw [last, show yearStart 399 = 145731 from rfl]
      omega
    · have begins : yearStart (yearOfEra day + 1) ≤ dayOfEra day ↔ yearOfEra day + 1 ≤ yearOfEra day :=
        yearStart_le_iff (by omega) (by omega)
      have next := mt begins.mp (show ¬ yearOfEra day + 1 ≤ yearOfEra day by omega)
      have length : yearStart (yearOfEra day + 1) ≤ yearStart (yearOfEra day) + 366 := by
        unfold yearStart
        omega
      omega

theorem civilMonth_range (day : Int) : 1 ≤ civilMonth day ∧ civilMonth day ≤ 12 := by
  have range := dayOfYear_range day
  unfold civilMonth monthOfYear
  dsimp only
  split <;> omega

theorem dayOfMonth_range (day : Int) : 1 ≤ dayOfMonth day ∧ dayOfMonth day ≤ 31 := by
  have range := dayOfYear_range day
  rw [dayOfMonth_eq_monthDay, monthDay]
  omega

/-- A date says which day it is of. -/
theorem dayNumber_civil (day : Int) : dayNumber (civilYear day) (civilMonth day) (dayOfMonth day) = day := by
  obtain ⟨low, high⟩ := yearOfEra_range day
  obtain ⟨first, last⟩ := dayOfYear_range day
  have split : day + 719468 = (day + 719468) / 146097 * 146097 + yearStart (yearOfEra day) + dayOfYear day := by
    unfold dayOfYear dayOfEra
    omega
  have months : monthOfYear (dayOfYear day) < 12 := by
    unfold monthOfYear
    omega
  unfold dayNumber civilYear civilMonth
  rw [dayOfMonth_eq_monthDay, monthDay, ← monthOfYear]
  dsimp only
  by_cases late : monthOfYear (dayOfYear day) < 10
  · have early : ¬ monthOfYear (dayOfYear day) + 3 ≤ 2 := by
      unfold monthOfYear
      omega
    simp only [if_pos late, if_neg early]
    rw [show ((day + 719468) / 146097 * 400 + yearOfEra day + 0) % 400 = yearOfEra day by omega]
    omega
  · have early : monthOfYear (dayOfYear day) - 9 ≤ 2 := by omega
    simp only [if_neg late, if_pos early]
    rw [show ((day + 719468) / 146097 * 400 + yearOfEra day + 1 - 1) % 400 = yearOfEra day by omega]
    omega

/-- What the first day of a month shares with the others. -/
theorem firstOfMonth_civil (day : Int) : civilYear (firstOfMonth day) = civilYear day ∧
    civilMonth (firstOfMonth day) = civilMonth day ∧ dayOfMonth (firstOfMonth day) = 1 := by
  obtain ⟨low, high⟩ := yearOfEra_range day
  obtain ⟨early, late⟩ := dayOfYear_range day
  have start : firstOfMonth day = day - (dayOfYear day - (153 * monthOfYear (dayOfYear day) + 2) / 5) := by
    rw [firstOfMonth, dayOfMonth_eq_monthDay, monthDay, monthOfYear]
    omega
  have inside : 0 ≤ (153 * monthOfYear (dayOfYear day) + 2) / 5 ∧
      (153 * monthOfYear (dayOfYear day) + 2) / 5 ≤ dayOfYear day := by
    unfold monthOfYear
    omega
  have split : dayOfEra day = yearStart (yearOfEra day) + dayOfYear day := by
    unfold dayOfYear
    omega
  have nonneg : 0 ≤ yearStart (yearOfEra day) := by
    unfold yearStart
    omega
  have era : dayOfEra (firstOfMonth day) =
      yearStart (yearOfEra day) + (153 * monthOfYear (dayOfYear day) + 2) / 5 := by
    rw [start]
    unfold dayOfEra at split ⊢
    omega
  have eras : (firstOfMonth day + 719468) / 146097 = (day + 719468) / 146097 := by
    rw [start]
    unfold dayOfEra at split
    omega
  have year : yearOfEra (firstOfMonth day) = yearOfEra day := by
    have ordered : yearOfEra (firstOfMonth day) ≤ yearOfEra day :=
      Int.ediv_le_ediv (by decide) (yearDays_mono (by omega))
    refine le_antisymm ordered ?_
    rcases low.eq_or_lt with first | later
    · rw [← first]
      exact (yearOfEra_range _).1
    · exact (yearStart_le_iff later high).mp (by omega)
  have ofYear : dayOfYear (firstOfMonth day) = (153 * monthOfYear (dayOfYear day) + 2) / 5 := by
    rw [dayOfYear, era, year]
    omega
  have month : monthOfYear (dayOfYear (firstOfMonth day)) = monthOfYear (dayOfYear day) := by
    rw [ofYear]
    unfold monthOfYear
    omega
  have civil : civilMonth (firstOfMonth day) = civilMonth day := by rw [civilMonth, month, civilMonth]
  refine ⟨by rw [civilYear, civilYear, eras, year, civil], civil, ?_⟩
  rw [dayOfMonth_eq_monthDay, monthDay, ← monthOfYear, month, ofYear]
  omega

/-- Days are of one month iff the month begins on one day. -/
theorem firstOfMonth_eq_iff {first second : Int} : firstOfMonth first = firstOfMonth second ↔
    civilYear first = civilYear second ∧ civilMonth first = civilMonth second := by
  obtain ⟨year, month, one⟩ := firstOfMonth_civil first
  obtain ⟨year', month', one'⟩ := firstOfMonth_civil second
  constructor
  · intro same
    rw [← year, ← month, ← year', ← month', same]
    exact ⟨rfl, rfl⟩
  · rintro ⟨years, months⟩
    rw [← dayNumber_civil (firstOfMonth first), ← dayNumber_civil (firstOfMonth second), year, month, one, year',
      month', one', years, months]

/-- A day up to another is of its month iff the month has begun. -/
theorem sameMonth_iff {first second : Int} (ordered : first ≤ second) :
    (civilYear first = civilYear second ∧ civilMonth first = civilMonth second) ↔ firstOfMonth second ≤ first := by
  rw [← firstOfMonth_eq_iff]
  constructor
  · intro same
    rw [← same]
    exact firstOfMonth_le first
  · intro begun
    refine le_antisymm (firstOfMonth_mono ordered) ?_
    have later := firstOfMonth_mono begun
    have one := (firstOfMonth_civil second).2.2
    rwa [firstOfMonth, one, Int.sub_self, Int.sub_zero] at later

/-- The days of a month. -/
def daysInMonth (year month : Nat) : Nat :=
  if month = 2 then if year % 4 = 0 ∧ (year % 100 ≠ 0 ∨ year % 400 = 0) then 29 else 28
  else if month = 4 ∨ month = 6 ∨ month = 9 ∨ month = 11 then 30 else 31

theorem daysInMonth_le (year month : Nat) : daysInMonth year month ≤ 31 := by
  unfold daysInMonth
  split_ifs <;> decide

theorem dayNumber_succ_month {year month : Nat} (first : 1 ≤ month) (last : month < 12) :
    dayNumber year (month + 1) 1 = dayNumber year month 1 + daysInMonth year month := by
  interval_cases month <;> simp [dayNumber, daysInMonth, yearStart] <;> omega

theorem dayNumber_succ_year (year : Nat) : dayNumber (year + 1) 1 1 = dayNumber year 12 1 + daysInMonth year 12 := by
  simp [dayNumber, daysInMonth, yearStart]
  omega

/-- The months, counted from January of the year 0. -/
def monthNumber (year month : Nat) : Nat := 12 * year + (month - 1)

/-- The first day of a month by its number. -/
def startOf (n : Nat) : Int := dayNumber ((n / 12 : Nat) : Int) ((n % 12 + 1 : Nat) : Int) 1

theorem startOf_succ (n : Nat) : startOf (n + 1) = startOf n + daysInMonth (n / 12) (n % 12 + 1) := by
  unfold startOf
  by_cases last : n % 12 = 11
  · have next : (n + 1) / 12 = n / 12 + 1 ∧ (n + 1) % 12 = 0 := by omega
    rw [next.1, next.2, last]
    exact_mod_cast dayNumber_succ_year (n / 12)
  · have next : (n + 1) / 12 = n / 12 ∧ (n + 1) % 12 = n % 12 + 1 := by omega
    rw [next.1, next.2]
    exact_mod_cast dayNumber_succ_month (show 1 ≤ n % 12 + 1 by omega) (show n % 12 + 1 < 12 by omega)

/-- The days of a month are before the months after it. -/
theorem startOf_add_le {m n : Nat} (less : m < n) : startOf m + daysInMonth (m / 12) (m % 12 + 1) ≤ startOf n := by
  induction n, less using Nat.le_induction with
  | base => exact (startOf_succ m).ge
  | succ n _ ih =>
      rw [startOf_succ]
      omega

theorem dayNumber_eq_startOf {year month : Nat} (inYear : 1 ≤ month ∧ month ≤ 12) (day : Int) :
    dayNumber year month day = startOf (monthNumber year month) + (day - 1) := by
  have split : monthNumber year month / 12 = year ∧ monthNumber year month % 12 + 1 = month := by
    unfold monthNumber
    omega
  rw [startOf, split.1, split.2]
  unfold dayNumber
  dsimp only
  omega

/-- A day is before those of a later month. -/
theorem dayNumber_lt_of_month {year month day year' month' day' : Nat} (inYear : 1 ≤ month ∧ month ≤ 12)
    (inYear' : 1 ≤ month' ∧ month' ≤ 12) (inMonth : 1 ≤ day ∧ day ≤ daysInMonth year month) (first : 1 ≤ day')
    (less : year < year' ∨ year = year' ∧ month < month') :
    dayNumber year month day < dayNumber year' month' day' := by
  have ordered : monthNumber year month < monthNumber year' month' := by
    unfold monthNumber
    omega
  have split : monthNumber year month / 12 = year ∧ monthNumber year month % 12 + 1 = month := by
    unfold monthNumber
    omega
  have bound := startOf_add_le ordered
  rw [split.1, split.2] at bound
  rw [dayNumber_eq_startOf inYear, dayNumber_eq_startOf inYear']
  omega

end Argentum.Calendar
