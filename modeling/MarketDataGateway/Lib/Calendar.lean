import Mathlib.Data.List.GetD
import Mathlib.Algebra.Order.Ring.Int

/-!
# The calendar

Dates of the proleptic Gregorian calendar as days since 1970, and dates with times as microseconds.
Each field is within its bounds.
-/

namespace MarketDataGateway.Lib

/-- The year is a leap year. -/
def isLeap (year : ℕ) : Bool := year % 4 = 0 ∧ (year % 100 ≠ 0 ∨ year % 400 = 0)

/-- The days of the months of a year. -/
def monthLengths (year : ℕ) : List ℕ :=
  [31, if isLeap year then 29 else 28, 31, 30, 31, 30, 31, 31, 30, 31, 30, 31]

/-- The date exists. -/
def IsDate (year month day : ℕ) : Prop :=
  1 ≤ month ∧ 1 ≤ day ∧ day ≤ (monthLengths year).getD (month - 1) 0

instance (year month day : ℕ) : Decidable (IsDate year month day) :=
  inferInstanceAs (Decidable (_ ∧ _ ∧ _))

/-- The days of a date since the first one of 1970. -/
def dayNumber (year month day : ℕ) : ℤ :=
  365 * ((year : ℤ) - 1970) + ((year : ℤ) - 1969) / 4 - ((year : ℤ) - 1901) / 100 +
    ((year : ℤ) - 1601) / 400 + ((monthLengths year).take (month - 1)).sum + day - 1

example : dayNumber 1970 1 1 = 0 ∧ dayNumber 2000 3 1 = 11017 ∧
    dayNumber 1969 12 31 = -1 := by decide

/-- A date and a time, of the years with at most four digits. -/
structure Civil where
  /-- The year. -/
  year : ℕ
  /-- The month, from 1 on. -/
  month : ℕ
  /-- The day, from 1 on. -/
  day : ℕ
  /-- The hour. -/
  hour : ℕ
  /-- The minute. -/
  minute : ℕ
  /-- The second. -/
  second : ℕ
  /-- The microsecond. -/
  microsecond : ℕ
  year_lt : year < 10000
  isDate : IsDate year month day
  hour_lt : hour < 24
  minute_lt : minute < 60
  second_lt : second < 60
  microsecond_lt : microsecond < 1000000

namespace Civil

/-- The seconds since 1970. -/
def seconds (c : Civil) : ℤ :=
  ((dayNumber c.year c.month c.day * 24 + c.hour) * 60 + c.minute) * 60 + c.second

/-- The microseconds since 1970. -/
def microseconds (c : Civil) : ℤ := c.seconds * 1000000 + c.microsecond

/-- A month has two digits. -/
theorem month_lt (c : Civil) : c.month < 100 := by
  have hdate := c.isDate
  have hlength : (monthLengths c.year).length = 12 := rfl
  by_contra hlarge
  have hzero : (monthLengths c.year).getD (c.month - 1) 0 = 0 :=
    List.getD_eq_default _ _ (by omega)
  unfold IsDate at hdate
  omega

/-- A day has two digits. -/
theorem day_lt (c : Civil) : c.day < 100 := by
  have hdate := c.isDate
  have hle : ∀ n ∈ monthLengths c.year, n ≤ 31 := by
    unfold monthLengths
    intro n hn
    simp only [List.mem_cons, List.not_mem_nil, or_false] at hn
    split_ifs at hn <;> omega
  have hget : (monthLengths c.year).getD (c.month - 1) 0 ≤ 31 := by
    rcases Nat.lt_or_ge (c.month - 1) (monthLengths c.year).length with hlt | hge
    · rw [List.getD_eq_getElem _ _ hlt]
      exact hle _ (List.getElem_mem hlt)
    · rw [List.getD_eq_default _ _ hge]
      omega
  unfold IsDate at hdate
  omega

end Civil

end MarketDataGateway.Lib
