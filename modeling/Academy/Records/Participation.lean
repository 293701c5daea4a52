import Academy.Catalog.Feedback
import Academy.Json.Extended
import Academy.Random.Draw

/-!
# Enrollments, reviews and payments

What a student does with a course: takes it, judges it, pays for it. The
status of an enrollment decides which of its other fields are there and
in which bounds they lie, and the rating of a review decides its comments
and how helpful it can be. These rules are stated here once; making
records and checking them both refer to them.
-/

namespace Academy

variable (Ref Date : Type)

/-- **How far a student is with a course.** -/
inductive EnrollmentStatus
  | inProgress
  | completed
  | dropped
deriving DecidableEq, Repr, Inhabited

/-- **A student's taking a course.** -/
structure Enrollment where
  /-- What it is known by. -/
  id : Ref
  /-- The student. -/
  student : Ref
  /-- The course. -/
  course : Ref
  /-- When the student began. -/
  enrolledAt : Date
  /-- How far the student is. -/
  status : EnrollmentStatus
  /-- How much of the course is done, in percent. -/
  progress : UInt8
  /-- The grade at the end. -/
  finalGrade : Option Binary64
  /-- When the student was there last. -/
  lastAccessed : Option Date
deriving DecidableEq

/-- **A student's judgement on a course.** -/
structure Review where
  /-- What it is known by. -/
  id : Ref
  /-- The course. -/
  course : Ref
  /-- The student. -/
  student : Ref
  /-- The rating, from one to five. -/
  rating : UInt8
  /-- What the student says. -/
  comment : String
  /-- When the review was written. -/
  createdAt : Date
  /-- How many found it helpful. -/
  helpfulCount : UInt32
deriving DecidableEq

/-- **How a payment stands.** -/
inductive PaymentStatus
  | completed
  | pending
  | failed
deriving DecidableEq, Repr, Inhabited

/-- **A student's payment for a course.** -/
structure Payment where
  /-- What it is known by. -/
  id : Ref
  /-- The student. -/
  student : Ref
  /-- The course. -/
  course : Ref
  /-- How much. -/
  amount : Binary64
  /-- Of which money. -/
  currency : String
  /-- When it was paid. -/
  paidAt : Date
  /-- How it was paid. -/
  method : String
  /-- How it stands. -/
  status : PaymentStatus
  /-- The number of the transaction. -/
  transaction : String
deriving DecidableEq

/-! ## Enrollments -/

namespace EnrollmentStatus

/-- The statuses. -/
def all : List EnrollmentStatus :=
  [inProgress, completed, dropped]

/-- The word for a status. -/
def word : EnrollmentStatus → String
  | inProgress => "in_progress"
  | completed => "completed"
  | dropped => "dropped"

/-- The name of a status in messages. -/
def title : EnrollmentStatus → String
  | inProgress => "InProgress"
  | completed => "Completed"
  | dropped => "Dropped"

/-- Statuses as words. -/
def codec : Codec EnrollmentStatus :=
  .oneOf (all.map fun s => (s.word, s)) word

/-- How common the statuses are. -/
def weights : List (EnrollmentStatus × Binary64) :=
  [(inProgress, 0.55), (completed, 0.4), (dropped, 0.05)]

/-- How much can be done of the course. -/
def progress : EnrollmentStatus → Span
  | inProgress => ⟨10, 95⟩
  | completed => ⟨100, 100⟩
  | dropped => ⟨5, 40⟩

/-- Only who has completed a course has a grade. -/
def hasFinalGrade : EnrollmentStatus → Bool
  | completed => true
  | _ => false

/-- Only of who is still at a course it is known when they were there last. -/
def tracksLastAccess : EnrollmentStatus → Bool
  | inProgress => true
  | _ => false

end EnrollmentStatus

/-- The lowest grade with which a course is completed. -/
def Enrollment.lowestGrade : Binary64 := 65

/-- The best grade. -/
def Enrollment.bestGrade : Binary64 := 100

/-- The fields of an enrollment. -/
def Enrollment.fields : List Field :=
  [.required "_id" .identifier,
   .required "student_id" .identifier,
   .required "course_id" .identifier,
   .required "enrolled_at" .instant,
   .required "status" EnrollmentStatus.codec,
   .required "progress_percent" .uint8,
   .optional "final_grade" .binary64,
   .optional "last_accessed" .instant]

/-- **Enrollments as records.** -/
def Enrollment.codec : Codec (Enrollment Identifier Instant) :=
  (Codec.record "Enrollment" Enrollment.fields false).correspond
    (fun (id, student, course, enrolledAt, status, progress, finalGrade, lastAccessed, ()) =>
      ⟨id, student, course, enrolledAt, status, progress, finalGrade, lastAccessed⟩)
    (fun e => (e.id, e.student, e.course, e.enrolledAt, e.status, e.progress, e.finalGrade,
      e.lastAccessed, ()))

/-! ## Reviews -/

namespace Review

/-- How common the ratings are. -/
def ratingWeights : List (UInt8 × Binary64) :=
  [(5, 0.5), (4, 0.3), (3, 0.12), (2, 0.05), (1, 0.03)]

/-- How many can find a review of the given rating helpful. -/
def helpful (rating : UInt8) : Span :=
  if 4 ≤ rating then ⟨0, 50⟩ else ⟨0, 10⟩

/-- The fields of a review. -/
def fields : List Field :=
  [.required "_id" .identifier,
   .required "course_id" .identifier,
   .required "student_id" .identifier,
   .required "rating" .uint8,
   .required "comment" .string,
   .required "created_at" .instant,
   .required "helpful_count" .uint32]

/-- **Reviews as records.** -/
def codec : Codec (Review Identifier Instant) :=
  (Codec.record "Review" fields false).correspond
    (fun (id, course, student, rating, comment, createdAt, helpfulCount, ()) =>
      ⟨id, course, student, rating, comment, createdAt, helpfulCount⟩)
    (fun r => (r.id, r.course, r.student, r.rating, r.comment, r.createdAt, r.helpfulCount, ()))

end Review

/-! ## Payments -/

namespace PaymentStatus

/-- The statuses. -/
def all : List PaymentStatus :=
  [completed, pending, failed]

/-- The word for a status. -/
def word : PaymentStatus → String
  | completed => "completed"
  | pending => "pending"
  | failed => "failed"

/-- Statuses as words. -/
def codec : Codec PaymentStatus :=
  .oneOf (all.map fun s => (s.word, s)) word

/-- How common the statuses are. -/
def weights : List (PaymentStatus × Binary64) :=
  [(completed, 0.95), (pending, 0.03), (failed, 0.02)]

end PaymentStatus

/-- The fields of a payment. -/
def Payment.fields : List Field :=
  [.required "_id" .identifier,
   .required "student_id" .identifier,
   .required "course_id" .identifier,
   .required "amount" .binary64,
   .required "currency" .string,
   .required "paid_at" .instant,
   .required "payment_method" .string,
   .required "status" PaymentStatus.codec,
   .required "transaction_id" .string]

/-- **Payments as records.** -/
def Payment.codec : Codec (Payment Identifier Instant) :=
  (Codec.record "Payment" Payment.fields false).correspond
    (fun (id, student, course, amount, currency, paidAt, method, status, transaction, ()) =>
      ⟨id, student, course, amount, currency, paidAt, method, status, transaction⟩)
    (fun p => (p.id, p.student, p.course, p.amount, p.currency, p.paidAt, p.method, p.status,
      p.transaction, ()))

end Academy
