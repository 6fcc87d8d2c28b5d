/-!
# The calendar

Dates of the Gregorian calendar, carried on before its beginning, and the count of days.

* `Date`: a year, a month and a day, and `Date.IsValid`;
* `Date.dayNumber`: the days from the beginning of year 1 to a date;
* `Date.ofDayNumber`: the date of a day.
-/

namespace ShortMessage

namespace Calendar

/-- Every fourth year is a leap year, but of the full centuries only every fourth. -/
def isLeap (year : Int) : Bool :=
  year % 4 = 0 && (year % 100 ≠ 0 || year % 400 = 0)

/-- The days of the months of a year. -/
def monthLengths (leap : Bool) : List Nat :=
  [31, if leap then 29 else 28, 31, 30, 31, 30, 31, 31, 30, 31, 30, 31]

/-- The days from the beginning of year 1 to the beginning of a year. -/
def daysBeforeYear (year : Int) : Int :=
  365 * (year - 1) + (year - 1) / 4 - (year - 1) / 100 + (year - 1) / 400

/-- The year that a day falls in: four hundred years have 146097 days, and the estimate made from
that is off by one at most. -/
def yearOfDay (day : Int) : Int :=
  let year := 400 * day / 146097 + 1
  if day < daysBeforeYear year then year - 1
  else if daysBeforeYear (year + 1) ≤ day then year + 1
  else year

/-- The days of the first months of a year. -/
def daysOfMonths : (months : Nat) → List Nat → Nat
  | months + 1, length :: lengths => length + daysOfMonths months lengths
  | _, _ => 0

/-- Where a day of the year falls: the months before its month, and the days before it there. -/
def splitMonths : List Nat → Nat → Nat × Nat
  | [], day => (0, day)
  | length :: lengths, day =>
    if day < length then (0, day)
    else
      let (months, day) := splitMonths lengths (day - length)
      (months + 1, day)

end Calendar

/-- A date; months and days are counted from one. -/
structure Date where
  year : Int
  month : Nat
  day : Nat
deriving DecidableEq

namespace Date

open Calendar

/-- The days of a month, which is counted from one. -/
def lengthOfMonth (year : Int) (month : Nat) : Nat :=
  ((monthLengths (isLeap year))[month - 1]?).getD 0

/-- The month is one of the twelve, and the day one of its days. -/
def IsValid (d : Date) : Prop :=
  1 ≤ d.month ∧ d.month ≤ 12 ∧ 1 ≤ d.day ∧ d.day ≤ lengthOfMonth d.year d.month

instance (d : Date) : Decidable d.IsValid := by
  unfold IsValid
  infer_instance

/-- The days from the beginning of year 1 to a date. -/
def dayNumber (d : Date) : Int :=
  daysBeforeYear d.year + daysOfMonths (d.month - 1) (monthLengths (isLeap d.year)) + (d.day - 1)

/-- The date of a day; `dayNumber` is its inverse. -/
def ofDayNumber (day : Int) : Date :=
  let year := yearOfDay day
  let (months, days) := splitMonths (monthLengths (isLeap year)) (day - daysBeforeYear year).toNat
  ⟨year, months + 1, days + 1⟩

end Date

end ShortMessage
