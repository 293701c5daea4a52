import Academy.Calendar.Date

/-!
# Instants

A point in time is a number of seconds since the beginning of 1970 and a
number of nanoseconds within the second. Days have 86400 seconds, and a
leap second is a second of more than a milliard nanoseconds: it stays
within the last second of its minute, the only place where the
nanoseconds may run on.

The calendar ends on both sides, and an instant that is read or reached
by going back some days has to lie within it (`inCalendar`). Going back
is by whole days, and how many there are before the calendar begins is
the instant's `reach`.
-/

namespace Academy

/-- **A point in time.** -/
structure Instant where
  /-- Whole seconds since 1970 began. -/
  seconds : Int
  /-- Nanoseconds within the second. -/
  nanos : Nat
  /-- A second has a milliard nanoseconds, and twice as many where a leap
  second is added at the end of its minute. -/
  nanos_lt : nanos < 1000000000 ∨ (nanos < 2000000000 ∧ seconds % 60 = 59)
deriving DecidableEq

namespace Instant

/-- The instant of a second and a nanosecond, if there is such a one. -/
def of? (seconds : Int) (nanos : Nat) : Option Instant :=
  if h : nanos < 1000000000 ∨ (nanos < 2000000000 ∧ seconds % 60 = 59) then
    some ⟨seconds, nanos, h⟩
  else none

/-- The instant at the beginning of a second. -/
def ofSeconds (seconds : Int) : Instant :=
  ⟨seconds, 0, .inl (by decide)⟩

instance : Inhabited Instant := ⟨ofSeconds 0⟩

/-- Whether the instant lies in a leap second. -/
def isLeap (t : Instant) : Bool :=
  1000000000 ≤ t.nanos

/-- Earlier instants come first. -/
def compare (s t : Instant) : Ordering :=
  (Ord.compare s.seconds t.seconds).then (Ord.compare s.nanos t.nanos)

/-! ## The calendar -/

/-- The first second of the calendar: the year -262143 begins. -/
def firstSecond : Int := -8334601228800

/-- The last second of the calendar, at the end of the year 262142. -/
def lastSecond : Int := 8210266876799

/-- Whether the instant lies within the calendar. -/
def inCalendar (t : Instant) : Bool :=
  firstSecond ≤ t.seconds && t.seconds ≤ lastSecond

/-! ## Milliseconds -/

/-- The instant of a millisecond, where it lies within the calendar. -/
def ofMillis? (millis : Int) : Option Instant :=
  let t : Instant := ⟨millis / 1000, (millis % 1000).toNat * 1000000, by omega⟩
  if t.inCalendar then some t else none

/-- The instant without what is finer than a millisecond. -/
def truncate (t : Instant) : Instant :=
  ⟨t.seconds, t.nanos / 1000000 * 1000000, by have := t.nanos_lt; omega⟩

/-! ## Going back -/

/-- The seconds in a day. -/
def daySeconds : Nat := 86400

/-- **The instant some days earlier**, at the same time of day. A leap
second has no counterpart on other days: it counts there as the second
after it. -/
def daysBefore (t : Instant) (days : Nat) : Instant :=
  if days = 0 then t
  else if t.isLeap then
    ⟨t.seconds + 1 - days * daySeconds, t.nanos - 1000000000, by have := t.nanos_lt; omega⟩
  else
    ⟨t.seconds - days * daySeconds, t.nanos % 1000000000,
      .inl (Nat.mod_lt _ (by decide))⟩

/-- How many days the calendar holds before the instant. -/
def reach (t : Instant) : Nat :=
  (((if t.isLeap then t.seconds + 1 else t.seconds) - firstSecond) / daySeconds).toNat

end Instant

end Academy
