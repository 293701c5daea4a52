import Academy.Calendar.Instant
import Academy.Random.Draw

/-!
# Gathering records

A collection is filled by trying, a given number of times, to make one
more record. A try is told how many records there are already, so that
the record can be known by its place; it makes a record, or skips, or
finds that none can be made and ends the whole. Room for the records is
taken before the first try.

Every date of a record is the present moved back by whole days, so all
that has to be known of the present is how many days the calendar holds
before it and what each of them is called. That is a `Timeline`. The one
of an instant calls the days by instants; another may as well call them
by their number.
-/

namespace Academy

/-! ## Dates -/

/-- **The days before the present.** -/
structure Timeline (Date : Type) where
  /-- How many days there are. -/
  reach : Nat
  /-- The day so many days back. -/
  daysBefore : Nat → Date

/-- The days before an instant. -/
def Instant.timeline (now : Instant) : Timeline Instant where
  reach := now.reach
  daysBefore := now.daysBefore

/-- **A date at most so many days back**, each day with the same chance. -/
def Timeline.draw {Date : Type} (timeline : Timeline Date) (most : Nat) : Draw Date := do
  let days ← Draw.daysBack timeline.reach most
  pure (timeline.daysBefore days)

/-! ## Tries -/

/-- Takes room for as many records as there are to be, of which there is room
for `room`. -/
def Draw.reserve (room count : Nat) : Draw Unit :=
  if count ≤ room then pure () else throw .memory

/-- **What a try comes to.** -/
inductive Attempt (α : Type)
  /-- A record is made. -/
  | made (a : α)
  /-- No record is made this time. -/
  | skipped
  /-- No record can be made. -/
  | ended

/-- **The records of some tries**, the first of which is at place `index`. -/
def Draw.gather {α : Type} (attempt : (index : Nat) → Draw (Attempt α)) :
    (tries index : Nat) → Draw (List α)
  | 0, _ => pure []
  | tries + 1, index => do
    match ← attempt index with
    | .made a =>
      let as ← gather attempt tries (index + 1)
      pure (a :: as)
    | .skipped => gather attempt tries index
    | .ended => pure []

end Academy
