import Academy.Generation.Gather
import Academy.Catalog.Courses
import Academy.Catalog.People
import Academy.Random.WeightedChoice
import Academy.Records.Courses
import Academy.Records.People
import Academy.Text.Words
import Academy.Text.Lowercase

/-!
# Making categories, instructors and students

Categories and instructors are those of the catalog, as many of them
as there are to be; only how an instructor is rated and how many students
they have had is drawn. Students are drawn from the pools of names and
countries, and two of them may well have the same address.

The records of a collection are known by `ids`, which gives what the
record at each place is known by.
-/

namespace Academy

variable {Ref Date : Type}

/-! ## Categories -/

/-- The category of a template. -/
def CategoryTemplate.category (template : CategoryTemplate) (id : Ref) : Category Ref :=
  ⟨id, template.name, template.description⟩

/-- **The categories**, from the first of the catalog on. -/
def Category.gather (ids : Nat → Ref) (count : Nat) : List (Category Ref) :=
  (Catalog.categories.take count).mapIdx fun place template => template.category (ids place)

/-! ## Instructors -/

namespace Instructor

/-- How instructors are rated. -/
def ratings : UniformRange :=
  .known 4.2 5 (by decide +kernel)

/-- How many students an instructor can have had. -/
def studentsSpan : Span := ⟨500, 5000⟩

/-- The words of a name that an address is made of: in lower case, and
without titles. -/
def addressWords (name : List Char) : List (List Char) :=
  ((words name).map lowercase).filter fun word =>
    !(Catalog.academicTitles.map String.toList).contains word

/-- **The address of a name.** -/
def emailOf (name : String) : String :=
  String.ofList (['.'].intercalate (addressWords name.toList)) ++ "@" ++ Catalog.instructorDomain

/-- **An instructor of the catalog.** -/
def draw (template : InstructorTemplate) (id : Ref) : Draw (Instructor Ref) := do
  let rating ← ratings.drawRounded 2
  let totalStudents ← Draw.within studentsSpan
  pure {
    id
    name := template.name
    email := emailOf template.name
    bio := template.bio
    specialty := template.specialty
    country := template.country
    rating
    totalStudents := .ofNat totalStudents }

/-- **The instructors**, from the first of the catalog on. -/
def gather (ids : Nat → Ref) (count : Nat) : Draw (List (Instructor Ref)) :=
  Draw.gather (fun place => do
    match Catalog.instructors[place]? with
    | some template => .made <$> draw template (ids place)
    | none => pure .ended) count 0

end Instructor

/-! ## Students -/

/-- The statuses, ready to be drawn from. -/
def StudentStatus.choice : WeightedChoice StudentStatus :=
  .known weights (by decide +kernel)

namespace Student

/-- How old students are. -/
def ages : Span := ⟨18, 65⟩

/-- What is added to an address to tell students of one name apart. -/
def addressNumbers : Span := ⟨1, 999⟩

/-- How many days ago a student can have joined. -/
def registrationDays : Nat := 3 * 365

/-- The address of a student of the given names. -/
def emailOf (first last : String) (number : Nat) : String :=
  String.ofList (lowercase first.toList) ++ "." ++ String.ofList (lowercase last.toList) ++
    toString number ++ "@" ++ Catalog.studentDomain

/-- **A student of the given status.** -/
def draw (timeline : Timeline Date) (status : StudentStatus) (id : Ref) :
    Draw (Student Ref Date) := do
  let first ← Draw.pick Catalog.firstNames (by decide)
  let last ← Draw.pick Catalog.lastNames (by decide)
  let number ← Draw.short addressNumbers
  let country ← Draw.pick Catalog.countries (by decide)
  let registeredAt ← timeline.draw registrationDays
  let age ← Draw.short ages
  pure {
    id
    name := first ++ " " ++ last
    email := emailOf first last number
    country
    registeredAt
    status
    age := .ofNat age }

/-- **The students.** -/
def gather (timeline : Timeline Date) (ids : Nat → Ref) (count : Nat) :
    Draw (List (Student Ref Date)) :=
  Draw.gather (fun place => do
    let status ← StudentStatus.choice.draw
    .made <$> draw timeline status (ids place)) count 0

end Student

end Academy
