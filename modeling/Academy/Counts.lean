import Academy.Collection
import Academy.Catalog.People
import Academy.Catalog.Courses
import Academy.Json.Codec

/-!
# How many records there are to be

Each collection is to have some number of records. Not every choice of
numbers can be met: categories and instructors are taken from the
catalog and cannot be more than it has, a course needs a category and
an instructor, and what students do with courses needs a student and a
course. `Counts.validate` refuses the others, with the first reason in
this order.

What a run makes is kept in memory until it is written, and room for it is
taken before it is made. How much room there is depends on the machine;
that no machine has room for more than `memoryLimit` things holds for all
of them.
-/

namespace Academy

/-- How many things can be kept at most: an address has 48 bits. -/
def memoryLimit : Nat := Nat.pow 2 48

/-- **A number of records** for each collection. -/
abbrev Counts := PerCollection Nat

/-- **Why numbers of records cannot be met.** -/
inductive CountsError
  /-- There are fewer categories in the catalog. -/
  | tooManyCategories (count : Nat)
  /-- There are fewer instructors in the catalog. -/
  | tooManyInstructors (count : Nat)
  /-- Courses without categories or without instructors. -/
  | coursesAlone
  /-- Enrollments, reviews or payments without students or without courses. -/
  | participationAlone
deriving DecidableEq, Repr

/-- What is said about numbers that cannot be met. -/
def CountsError.message : CountsError → String
  | .tooManyCategories count =>
    "分类数量 " ++ toString count ++ " 超过模板数量 " ++ toString Catalog.categories.length
  | .tooManyInstructors count =>
    "讲师数量 " ++ toString count ++ " 超过模板数量 " ++ toString Catalog.instructors.length
  | .coursesAlone => "生成课程需要至少 1 个分类和 1 个讲师"
  | .participationAlone => "生成选课、评价或支付需要至少 1 个学员和 1 门课程"

namespace Counts

/-- The numbers where nothing else is said. -/
def standard : Counts where
  categories := 8
  instructors := 15
  students := 500
  courses := 80
  enrollments := 1400
  reviews := 900
  payments := 1200

/-- The number of all records. -/
def total (counts : Counts) : Nat :=
  counts.categories + counts.instructors + counts.students + counts.courses +
    counts.enrollments + counts.reviews + counts.payments

/-- **Whether the numbers can be met.** -/
def validate (counts : Counts) : Except CountsError Unit :=
  if Catalog.categories.length < counts.categories then
    .error (.tooManyCategories counts.categories)
  else if Catalog.instructors.length < counts.instructors then
    .error (.tooManyInstructors counts.instructors)
  else if 0 < counts.courses ∧ (counts.categories = 0 ∨ counts.instructors = 0) then
    .error .coursesAlone
  else if (0 < counts.enrollments ∨ 0 < counts.reviews ∨ 0 < counts.payments) ∧
      (counts.students = 0 ∨ counts.courses = 0) then
    .error .participationAlone
  else .ok ()

/-- The fields of a record of counts. -/
def fields : List Field :=
  Collection.all.map fun c => .withDefault c.name .count (standard.get c)

/-- **Counts as a record**, in which those that are missing are the standard
ones. -/
def codec : Codec Counts :=
  (Codec.record "GeneratorConfig" fields true).correspond
    (fun (categories, instructors, students, courses, enrollments, reviews, payments, ()) =>
      ⟨categories, instructors, students, courses, enrollments, reviews, payments⟩)
    (fun c => (c.categories, c.instructors, c.students, c.courses, c.enrollments, c.reviews,
      c.payments, ()))

end Counts

/-- **A change of some counts.** -/
abbrev CountChanges := PerCollection (Option Nat)

namespace CountChanges

/-- No change. -/
def none : CountChanges :=
  .ofFn fun _ => Option.none

/-- The counts after the change. -/
def apply (changes : CountChanges) (counts : Counts) : Counts :=
  .ofFn fun c => (changes.get c).getD (counts.get c)

end CountChanges

end Academy
