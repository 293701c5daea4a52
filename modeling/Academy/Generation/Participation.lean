import Academy.Binary64.Basic
import Academy.Generation.Gather
import Academy.Random.WeightedChoice
import Academy.Records.Courses
import Academy.Records.Participation
import Academy.Records.People

/-!
# Making enrollments, reviews and payments

Each of these records belongs to a student and a course, which are chosen
among all of them, and nothing prevents a student from reviewing a course
that they never took. Where there are no students or no courses, there
are no records.

Payments are tried as often as there are to be payments, but who takes a
course that costs nothing hardly ever pays for it, so there may be fewer.
-/

namespace Academy

variable {Ref Date : Type}

/-- **A student and a course**, if there are both. -/
def drawPair (students : List (Student Ref Date)) (courses : List (Course Ref Date)) :
    Draw (Option (Student Ref Date × Course Ref Date)) := do
  match ← Draw.choose students with
  | none => pure none
  | some student =>
    match ← Draw.choose courses with
    | none => pure none
    | some course => pure (some (student, course))

/-! ## Enrollments -/

/-- The statuses, ready to be drawn from. -/
def EnrollmentStatus.choice : WeightedChoice EnrollmentStatus :=
  .known weights (by decide +kernel)

namespace Enrollment

/-- How many days ago a student can have begun. -/
def enrollmentDays : Nat := 2 * 365

/-- How many days ago a student can have been there last. -/
def accessDays : Nat := 30

/-- The grades with which courses are completed. -/
def grades : UniformRange :=
  .known lowestGrade bestGrade (by decide +kernel)

/-- **An enrollment of the given status.** -/
def draw (timeline : Timeline Date) (status : EnrollmentStatus) (student course id : Ref) :
    Draw (Enrollment Ref Date) := do
  let enrolledAt ← timeline.draw enrollmentDays
  let progress ← Draw.short status.progress
  let finalGrade ← if status.hasFinalGrade then some <$> grades.drawRounded 1 else pure none
  let lastAccessed ←
    if status.tracksLastAccess then some <$> timeline.draw accessDays else pure none
  pure {
    id
    student
    course
    enrolledAt
    status
    progress := .ofNat progress
    finalGrade
    lastAccessed }

/-- **The enrollments.** -/
def gather (timeline : Timeline Date) (ids : Nat → Ref) (students : List (Student Ref Date))
    (courses : List (Course Ref Date)) (count : Nat) : Draw (List (Enrollment Ref Date)) :=
  Draw.gather (fun place => do
    match ← drawPair students courses with
    | none => pure .ended
    | some (student, course) =>
      let status ← EnrollmentStatus.choice.draw
      .made <$> draw timeline status student.id course.id (ids place)) count 0

end Enrollment

/-! ## Reviews -/

namespace Review

/-- The ratings, ready to be drawn from. -/
def ratingChoice : WeightedChoice UInt8 :=
  .known ratingWeights (by decide +kernel)

/-- How many days ago a review can have been written. -/
def writingDays : Nat := 2 * 365

/-- **A review of the given rating.** A rating for which there are no
comments has the empty one. -/
def draw (timeline : Timeline Date) (rating : UInt8) (course student id : Ref) :
    Draw (Review Ref Date) := do
  let comment ← Draw.choose (Catalog.comments rating)
  let createdAt ← timeline.draw writingDays
  let helpfulCount ← Draw.within (helpful rating)
  pure {
    id
    course
    student
    rating
    comment := comment.getD ""
    createdAt
    helpfulCount := .ofNat helpfulCount }

/-- **The reviews.** -/
def gather (timeline : Timeline Date) (ids : Nat → Ref) (students : List (Student Ref Date))
    (courses : List (Course Ref Date)) (count : Nat) : Draw (List (Review Ref Date)) :=
  Draw.gather (fun place => do
    match ← drawPair students courses with
    | none => pure .ended
    | some (student, course) =>
      let rating ← ratingChoice.draw
      .made <$> draw timeline rating course.id student.id (ids place)) count 0

end Review

/-! ## Payments -/

/-- The statuses, ready to be drawn from. -/
def PaymentStatus.choice : WeightedChoice PaymentStatus :=
  .known weights (by decide +kernel)

namespace Payment

/-- How many days ago a payment can have been made. -/
def paymentDays : Nat := 2 * 365

/-- How likely a discount is. -/
def discountProbability : Binary64 := 0.15

/-- How likely it is that no one pays for a course that costs nothing. -/
def skipProbability : Binary64 := 0.9

/-- The numbers of transactions. -/
def transactionNumbers : Span := ⟨100000, 999999⟩

/-- **What is paid of a price**: all of it, or what a discount leaves,
rounded to two places. -/
def drawAmount (price : Binary64) : Draw Binary64 := do
  if ← Draw.chance discountProbability then
    let factor ← Draw.pick Catalog.discountFactors (by decide)
    pure ((price * factor).roundTo 2)
  else pure price

/-- **A payment of the given status** for a course of the given price. -/
def draw (timeline : Timeline Date) (price : Binary64) (status : PaymentStatus)
    (student course id : Ref) : Draw (Payment Ref Date) := do
  let amount ← drawAmount price
  let paidAt ← timeline.draw paymentDays
  let method ← Draw.pick Catalog.paymentMethods (by decide)
  let number ← Draw.within transactionNumbers
  pure {
    id
    student
    course
    amount
    currency := Catalog.currency
    paidAt
    method
    status
    transaction := "TXN-" ++ toString number }

/-- Whether no one pays, which can be only where nothing is to be paid. -/
def drawSkip (price : Binary64) : Draw Bool :=
  if price.equal 0 then Draw.chance skipProbability else pure false

/-- **The payments.** -/
def gather (timeline : Timeline Date) (ids : Nat → Ref) (students : List (Student Ref Date))
    (courses : List (Course Ref Date)) (count : Nat) : Draw (List (Payment Ref Date)) :=
  Draw.gather (fun place => do
    match ← drawPair students courses with
    | none => pure .ended
    | some (student, course) =>
      if ← drawSkip course.price then pure .skipped
      else
        let status ← PaymentStatus.choice.draw
        .made <$> draw timeline course.price status student.id course.id (ids place)) count 0

end Payment

end Academy
