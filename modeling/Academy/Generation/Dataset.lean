import Academy.Dataset
import Academy.Generation.Courses
import Academy.Generation.Participation

/-!
# Making a dataset

The seven collections are made one after the other from one stream of
random words, each from the collections before it. Records are known by
their place in the whole: what comes first in a collection follows on
what came last in the one before.

Categories and instructors are as many as the catalog has at most. Of
other records there can be as many as there is room for, and that they
have room is made sure of before the first of them is drawn, whether or
not any can be drawn.
-/

namespace Academy

variable {Ref Date : Type}

namespace Dataset

/-- **The records of a collection**, from the collections before it, where
there is room for `room` records. -/
def drawRecords (room : Nat) (counts : Counts) (timeline : Timeline Date) (ids : Nat → Ref)
    (d : Dataset Ref Date) : (c : Collection) → Draw (List (Record Ref Date c))
  | .categories => pure (Category.gather ids counts.categories)
  | .instructors => Instructor.gather ids counts.instructors
  | .students => do
    Draw.reserve room counts.students
    Student.gather timeline ids counts.students
  | .courses => do
    Draw.reserve room counts.courses
    Course.gather timeline ids d.categories d.instructors counts.courses
  | .enrollments => do
    Draw.reserve room counts.enrollments
    Enrollment.gather timeline ids d.students d.courses counts.enrollments
  | .reviews => do
    Draw.reserve room counts.reviews
    Review.gather timeline ids d.students d.courses counts.reviews
  | .payments => do
    Draw.reserve room counts.payments
    Payment.gather timeline ids d.students d.courses counts.payments

/-- **A dataset** of the given numbers of records, where there is room for
`room` records of a collection. -/
def draw (room : Nat) (counts : Counts) (timeline : Timeline Date) (ids : Nat → Ref) :
    Draw (Dataset Ref Date) := do
  let d : Dataset Ref Date := {}
  let place := 0
  let categories ← drawRecords room counts timeline ids d .categories
  let d := { d with categories }
  let place := place + categories.length
  let instructors ← drawRecords room counts timeline (fun n => ids (place + n)) d .instructors
  let d := { d with instructors }
  let place := place + instructors.length
  let students ← drawRecords room counts timeline (fun n => ids (place + n)) d .students
  let d := { d with students }
  let place := place + students.length
  let courses ← drawRecords room counts timeline (fun n => ids (place + n)) d .courses
  let d := { d with courses }
  let place := place + courses.length
  let enrollments ← drawRecords room counts timeline (fun n => ids (place + n)) d .enrollments
  let d := { d with enrollments }
  let place := place + enrollments.length
  let reviews ← drawRecords room counts timeline (fun n => ids (place + n)) d .reviews
  let d := { d with reviews }
  let place := place + reviews.length
  let payments ← drawRecords room counts timeline (fun n => ids (place + n)) d .payments
  pure { d with payments }

end Dataset

end Academy
