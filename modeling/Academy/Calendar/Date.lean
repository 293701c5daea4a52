/-!
# Calendar dates

The Gregorian calendar, carried back to before its introduction and with
a year zero, as a numbering of days: day `0` is the first of January of
year `0`. A date is found from its day by the year it falls in and the
place in that year, never by stepping through the calendar.
-/

namespace Academy

/-- A year, a month and a day of the month, both counted from one. -/
structure Date where
  /-- The year; year `0` is the one before year `1`. -/
  year : Int
  /-- The month, from 1 to 12. -/
  month : Nat
  /-- The day of the month, from 1. -/
  day : Nat
deriving DecidableEq, Repr

namespace Date

/-- Whether a year has a 29th of February. -/
def isLeapYear (year : Int) : Bool :=
  year % 4 = 0 ∧ (year % 100 ≠ 0 ∨ year % 400 = 0)

/-- How many days there are in a month. -/
def daysInMonth (year : Int) (month : Nat) : Nat :=
  match month with
  | 2 => if isLeapYear year then 29 else 28
  | 4 | 6 | 9 | 11 => 30
  | _ => 31

/-- The days of the year before a month. -/
def daysBeforeMonth (year : Int) (month : Nat) : Nat :=
  ((List.range month).drop 1).foldl (fun days m => days + daysInMonth year m) 0

/-- The days from the beginning of year `0` to the beginning of a year: a
day for each of the years between whose number four divides, less one
where a hundred does, and one again where four hundred does. -/
def daysBeforeYear (year : Int) : Int :=
  365 * year + (year + 3) / 4 - (year + 99) / 100 + (year + 399) / 400

/-- Whether there is such a date. -/
def isValid (d : Date) : Bool :=
  1 ≤ d.month ∧ d.month ≤ 12 ∧ 1 ≤ d.day ∧ d.day ≤ daysInMonth d.year d.month

/-- **The number of a date.** -/
def toDays (d : Date) : Int :=
  daysBeforeYear d.year + (daysBeforeMonth d.year d.month + (d.day - 1) : Nat)

/-- The year of a day. Four hundred years are 146097 days, and dividing by
their mean length misses the year by one at most. -/
def yearOfDays (days : Int) : Int :=
  let guess := days * 400 / 146097
  if days < daysBeforeYear guess then guess - 1
  else if daysBeforeYear (guess + 1) ≤ days then guess + 1
  else guess

/-- The month that a day of the year falls in: the last that begins on it
or before. -/
def monthOfDay (year : Int) (dayOfYear : Nat) : Nat :=
  ((List.range 12).filter fun m => daysBeforeMonth year (m + 1) ≤ dayOfYear).length

/-- **The date of a day.** -/
def ofDays (days : Int) : Date :=
  let year := yearOfDays days
  let dayOfYear := (days - daysBeforeYear year).toNat
  let month := monthOfDay year dayOfYear
  ⟨year, month, dayOfYear - daysBeforeMonth year month + 1⟩

end Date

end Academy
