/-!
# The collections

A dataset is seven collections, and they are always gone through in one
order: the order in which they are made, since each one points only to
collections before it. What there is once for each collection – a count,
a change of a count – is a `PerCollection`.
-/

namespace Academy

/-- **A collection** of a dataset. -/
inductive Collection
  | categories
  | instructors
  | students
  | courses
  | enrollments
  | reviews
  | payments
deriving DecidableEq, Repr, Inhabited

namespace Collection

/-- The collections in their order. -/
def all : List Collection :=
  [categories, instructors, students, courses, enrollments, reviews, payments]

/-- The name of a collection. -/
def name : Collection → String
  | categories => "categories"
  | instructors => "instructors"
  | students => "students"
  | courses => "courses"
  | enrollments => "enrollments"
  | reviews => "reviews"
  | payments => "payments"

/-- The name of a collection's file. -/
def fileName (c : Collection) : String :=
  c.name ++ ".json"

end Collection

/-- **Something for each collection.** -/
structure PerCollection (α : Type) where
  /-- What there is for the categories. -/
  categories : α
  /-- What there is for the instructors. -/
  instructors : α
  /-- What there is for the students. -/
  students : α
  /-- What there is for the courses. -/
  courses : α
  /-- What there is for the enrollments. -/
  enrollments : α
  /-- What there is for the reviews. -/
  reviews : α
  /-- What there is for the payments. -/
  payments : α
deriving DecidableEq, Repr

namespace PerCollection

variable {α β γ : Type}

/-- What there is for a collection. -/
def get (p : PerCollection α) : Collection → α
  | .categories => p.categories
  | .instructors => p.instructors
  | .students => p.students
  | .courses => p.courses
  | .enrollments => p.enrollments
  | .reviews => p.reviews
  | .payments => p.payments

/-- The values of a function. -/
def ofFn (f : Collection → α) : PerCollection α where
  categories := f .categories
  instructors := f .instructors
  students := f .students
  courses := f .courses
  enrollments := f .enrollments
  reviews := f .reviews
  payments := f .payments

/-- What there is, in the order of the collections. -/
def toList (p : PerCollection α) : List α :=
  Collection.all.map p.get

end PerCollection

end Academy
