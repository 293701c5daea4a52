import Academy.Counts
import Academy.Records.Courses
import Academy.Records.People
import Academy.Records.Participation

/-!
# Datasets

The seven collections together. A dataset is only that: whether its
references lead anywhere is a matter of `Academy.Integrity`.
-/

namespace Academy

/-- **A dataset.** -/
structure Dataset (Ref Date : Type) where
  /-- The categories. -/
  categories : List (Category Ref) := []
  /-- The instructors. -/
  instructors : List (Instructor Ref) := []
  /-- The students. -/
  students : List (Student Ref Date) := []
  /-- The courses. -/
  courses : List (Course Ref Date) := []
  /-- The enrollments. -/
  enrollments : List (Enrollment Ref Date) := []
  /-- The reviews. -/
  reviews : List (Review Ref Date) := []
  /-- The payments. -/
  payments : List (Payment Ref Date) := []
deriving DecidableEq

namespace Dataset

/-- The kind of record of a collection. -/
def Record (Ref Date : Type) : Collection → Type
  | .categories => Category Ref
  | .instructors => Instructor Ref
  | .students => Student Ref Date
  | .courses => Course Ref Date
  | .enrollments => Enrollment Ref Date
  | .reviews => Review Ref Date
  | .payments => Payment Ref Date

variable {Ref Date : Type}

/-- **The records of a collection.** -/
def records (d : Dataset Ref Date) : (c : Collection) → List (Record Ref Date c)
  | .categories => d.categories
  | .instructors => d.instructors
  | .students => d.students
  | .courses => d.courses
  | .enrollments => d.enrollments
  | .reviews => d.reviews
  | .payments => d.payments

/-- The dataset of some records for each collection. -/
def ofRecords (records : (c : Collection) → List (Record Ref Date c)) : Dataset Ref Date where
  categories := records .categories
  instructors := records .instructors
  students := records .students
  courses := records .courses
  enrollments := records .enrollments
  reviews := records .reviews
  payments := records .payments

/-- The numbers of records. -/
def counts (d : Dataset Ref Date) : Counts :=
  .ofFn fun c => (d.records c).length

end Dataset

/-- **How the records of a collection are written and read.** -/
def Collection.codec : (c : Collection) → Codec (Dataset.Record Identifier Instant c)
  | .categories => Category.codec
  | .instructors => Instructor.codec
  | .students => Student.codec
  | .courses => Course.codec
  | .enrollments => Enrollment.codec
  | .reviews => Review.codec
  | .payments => Payment.codec

end Academy
