import Mathlib.Data.Nat.Find
import Mathlib.Order.Monotone.Basic

/-! The Gregorian calendar, extended to all years, and the instants that its dates and
times of day denote: seconds since 1970 in UTC, without leap seconds. Months are counted
from 0, days from 1. -/
namespace Calendar

def Leap (year : Int) : Prop := 4 ∣ year ∧ (100 ∣ year → 400 ∣ year)

instance (year : Int) : Decidable (Leap year) := inferInstanceAs (Decidable (_ ∧ _))

def yearLength (year : Int) : Nat := if Leap year then 366 else 365

/-- The days from the beginning of year 1 to that of another year. -/
def daysBeforeYear (year : Int) : Int :=
  365 * (year - 1) + (year - 1) / 4 - (year - 1) / 100 + (year - 1) / 400

theorem daysBeforeYear_succ (year : Int) : daysBeforeYear (year + 1) = daysBeforeYear year + yearLength year := by
  by_cases leap : Leap year
  · have days : yearLength year = 366 := if_pos leap
    unfold daysBeforeYear
    unfold Leap at leap
    omega
  · have days : yearLength year = 365 := if_neg leap
    unfold daysBeforeYear
    unfold Leap at leap
    omega

theorem daysBeforeYear_mono (later : year ≤ year') : daysBeforeYear year ≤ daysBeforeYear year' := by
  unfold daysBeforeYear
  omega

/-- The year of a day. The average length of a year misses it by one at most. -/
def yearOf (day : Int) : Int :=
  let guess := 400 * day / 146097 + 1
  if day < daysBeforeYear guess then guess - 1
  else if day < daysBeforeYear (guess + 1) then guess
  else guess + 1

theorem yearOf_spec (day : Int) :
    daysBeforeYear (yearOf day) ≤ day ∧ day < daysBeforeYear (yearOf day) + yearLength (yearOf day) := by
  rw [← daysBeforeYear_succ]
  unfold yearOf
  generalize guessed : 400 * day / 146097 + 1 = guess
  have early : daysBeforeYear (guess - 1) ≤ day := by
    unfold daysBeforeYear
    omega
  have late : day < daysBeforeYear (guess + 2) := by
    unfold daysBeforeYear
    omega
  simp only
  split
  · rename_i before
    exact ⟨early, by simpa using before⟩
  · rename_i reached
    split
    · rename_i before
      exact ⟨by omega, before⟩
    · rename_i passed
      exact ⟨by omega, by rwa [Int.add_assoc]⟩

def monthLength (year : Int) : Nat → Nat
  | 1 => if Leap year then 29 else 28
  | 3 | 5 | 8 | 10 => 30
  | _ => 31

def daysBeforeMonth (year : Int) : Nat → Nat
  | 0 => 0
  | month + 1 => daysBeforeMonth year month + monthLength year month

theorem daysBeforeMonth_year (year : Int) : daysBeforeMonth year 12 = yearLength year := by
  by_cases leap : Leap year <;> simp [daysBeforeMonth, monthLength, yearLength, leap]

theorem daysBeforeMonth_mono (year : Int) : Monotone (daysBeforeMonth year) :=
  monotone_nat_of_le_succ fun month => Nat.le_add_right _ (monthLength year month)

/-- The month of the day with this number in its year. -/
def monthOf (year : Int) (day : Nat) : Nat :=
  Nat.findGreatest (fun month => daysBeforeMonth year month ≤ day) 11

theorem monthOf_lt (year : Int) (day : Nat) : monthOf year day < 12 :=
  Nat.lt_succ_of_le (Nat.findGreatest_le 11)

theorem monthOf_spec (inside : day < yearLength year) :
    daysBeforeMonth year (monthOf year day) ≤ day ∧
      day < daysBeforeMonth year (monthOf year day) + monthLength year (monthOf year day) := by
  constructor
  · have first : daysBeforeMonth year 0 ≤ day := Nat.zero_le day
    exact Nat.findGreatest_spec (P := fun month => daysBeforeMonth year month ≤ day) (Nat.zero_le 11) first
  · change day < daysBeforeMonth year (monthOf year day + 1)
    by_contra reached
    rw [not_lt] at reached
    have within : monthOf year day + 1 ≤ 11 := by
      by_contra beyond
      have last := monthOf_lt year day
      have whole : monthOf year day + 1 = 12 := by omega
      rw [whole, daysBeforeMonth_year] at reached
      omega
    have greatest := Nat.le_findGreatest (P := fun month => daysBeforeMonth year month ≤ day) within reached
    exact Nat.not_succ_le_self _ greatest

structure Date where
  year : Int
  month : Nat
  day : Nat
  month_lt : month < 12
  day_pos : 0 < day
  day_le : day ≤ monthLength year month

namespace Date

/-- The days from 1970-01-01. -/
def number (d : Date) : Int :=
  daysBeforeYear d.year + daysBeforeMonth d.year d.month + (d.day - 1) - daysBeforeYear 1970

theorem number_bounds (d : Date) :
    daysBeforeYear d.year - daysBeforeYear 1970 ≤ d.number ∧
      d.number < daysBeforeYear (d.year + 1) - daysBeforeYear 1970 := by
  have first := d.day_pos
  have last := d.day_le
  have month : daysBeforeMonth d.year d.month + monthLength d.year d.month ≤ yearLength d.year := by
    rw [← daysBeforeMonth_year]
    exact daysBeforeMonth_mono d.year d.month_lt
  rw [daysBeforeYear_succ]
  unfold number
  omega

/-- The date of the day with this number in a year. -/
def ofYear (year : Int) (day : Nat) (inside : day < yearLength year) : Date where
  year := year
  month := monthOf year day
  day := day - daysBeforeMonth year (monthOf year day) + 1
  month_lt := monthOf_lt year day
  day_pos := Nat.succ_pos _
  day_le := by
    have bounds := monthOf_spec inside
    omega

theorem number_ofYear {year : Int} {day : Nat} (inside : day < yearLength year) :
    (ofYear year day inside).number = daysBeforeYear year + day - daysBeforeYear 1970 := by
  have bounds := monthOf_spec inside
  simp only [number, ofYear]
  omega

def ofNumber (n : Int) : Date :=
  ofYear (yearOf (n + daysBeforeYear 1970))
    (n + daysBeforeYear 1970 - daysBeforeYear (yearOf (n + daysBeforeYear 1970))).toNat (by
      have bounds := yearOf_spec (n + daysBeforeYear 1970)
      omega)

theorem number_ofNumber (n : Int) : (ofNumber n).number = n := by
  have bounds := yearOf_spec (n + daysBeforeYear 1970)
  rw [ofNumber, number_ofYear]
  omega

end Date

structure Clock where
  hour : Nat
  minute : Nat
  second : Nat
  hour_lt : hour < 24
  minute_lt : minute < 60
  second_lt : second < 60

namespace Clock

def number (c : Clock) : Nat := 3600 * c.hour + 60 * c.minute + c.second

theorem number_lt (c : Clock) : c.number < 86400 := by
  have hour := c.hour_lt
  have minute := c.minute_lt
  have second := c.second_lt
  unfold number
  omega

def ofNumber (n : Nat) (bound : n < 86400) : Clock where
  hour := n / 3600
  minute := n / 60 % 60
  second := n % 60
  hour_lt := by omega
  minute_lt := Nat.mod_lt _ (by decide)
  second_lt := Nat.mod_lt _ (by decide)

theorem number_ofNumber (bound : n < 86400) : (ofNumber n bound).number = n := by
  simp only [number, ofNumber]
  omega

end Clock

structure DateTime where
  date : Date
  clock : Clock

namespace DateTime

def instant (d : DateTime) : Int := 86400 * d.date.number + d.clock.number

/-- The beginning of a year. -/
def yearStart (year : Int) : Int := 86400 * (daysBeforeYear year - daysBeforeYear 1970)

/-- An instant is in the years that it begins before the end of. -/
theorem year_lt_iff (d : DateTime) (year : Int) : d.date.year < year ↔ d.instant < yearStart year := by
  have bounds := d.date.number_bounds
  have clock := d.clock.number_lt
  unfold instant yearStart
  constructor
  · intro before
    have later : daysBeforeYear (d.date.year + 1) ≤ daysBeforeYear year := daysBeforeYear_mono before
    omega
  · intro before
    by_contra reached
    have later : daysBeforeYear year ≤ daysBeforeYear d.date.year := daysBeforeYear_mono (Int.not_lt.mp reached)
    omega

def ofInstant (n : Int) : DateTime where
  date := .ofNumber (n / 86400)
  clock := .ofNumber (n % 86400).toNat (by omega)

/-- Every instant is that of its date and time of day. -/
theorem instant_ofInstant (n : Int) : (ofInstant n).instant = n := by
  simp only [instant, ofInstant, Date.number_ofNumber, Clock.number_ofNumber]
  omega

end DateTime
end Calendar
