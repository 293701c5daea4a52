import Academy.Json.Extended

/-!
# Categories and courses

A record refers to other records and dates what it tells of. How it
refers (`Ref`) and how it dates (`Date`) is left open: in a file these
are identifiers and instants, and a record can as well be looked at with
the positions of other records and the number of days before the present.
-/

namespace Academy

variable (Ref Date : Type)

/-- **A category** of courses. -/
structure Category where
  /-- What it is known by. -/
  id : Ref
  /-- Its name. -/
  name : String
  /-- What it is about. -/
  description : String
deriving DecidableEq

/-- **How advanced a course is.** -/
inductive Level
  | beginner
  | intermediate
  | advanced
deriving DecidableEq, Repr, Inhabited

/-- **A course.** -/
structure Course where
  /-- What it is known by. -/
  id : Ref
  /-- Its title. -/
  title : String
  /-- What it teaches. -/
  description : String
  /-- The category it belongs to. -/
  category : Ref
  /-- The instructor who gives it. -/
  instructor : Ref
  /-- What it costs. -/
  price : Binary64
  /-- How long it takes. -/
  hours : Binary64
  /-- When it was made. -/
  createdAt : Date
  /-- Words it is found by. -/
  tags : List String
  /-- How it is rated. -/
  rating : Binary64
  /-- How many students are said to take it. -/
  enrolledCount : UInt32
  /-- How advanced it is. -/
  level : Level
deriving DecidableEq

/-- The fields of a category. -/
def Category.fields : List Field :=
  [.required "_id" .identifier,
   .required "name" .string,
   .required "description" .string]

/-- **Categories as records.** -/
def Category.codec : Codec (Category Identifier) :=
  (Codec.record "Category" Category.fields false).correspond
    (fun (id, name, description, ()) => ⟨id, name, description⟩)
    (fun c => (c.id, c.name, c.description, ()))

namespace Level

/-- The levels. -/
def all : List Level :=
  [beginner, intermediate, advanced]

/-- The word for a level. -/
def word : Level → String
  | beginner => "Beginner"
  | intermediate => "Intermediate"
  | advanced => "Advanced"

/-- Levels as words. -/
def codec : Codec Level :=
  .oneOf (all.map fun l => (l.word, l)) word

end Level

/-- The fields of a course. -/
def Course.fields : List Field :=
  [.required "_id" .identifier,
   .required "title" .string,
   .required "description" .string,
   .required "category_id" .identifier,
   .required "instructor_id" .identifier,
   .required "price" .binary64,
   .required "duration_hours" .binary64,
   .required "created_at" .instant,
   .required "tags" (.list .string),
   .required "rating" .binary64,
   .required "enrolled_count" .uint32,
   .required "level" Level.codec]

/-- **Courses as records.** -/
def Course.codec : Codec (Course Identifier Instant) :=
  (Codec.record "Course" Course.fields false).correspond
    (fun (id, title, description, category, instructor, price, hours, createdAt, tags, rating,
        enrolledCount, level, ()) =>
      ⟨id, title, description, category, instructor, price, hours, createdAt, tags, rating,
        enrolledCount, level⟩)
    (fun c => (c.id, c.title, c.description, c.category, c.instructor, c.price, c.hours,
      c.createdAt, c.tags, c.rating, c.enrolledCount, c.level, ()))

end Academy
