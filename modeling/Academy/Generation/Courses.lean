import Academy.Binary64.Basic
import Academy.Generation.People

/-!
# Making courses

Courses are first those of the catalog: the templates of the categories
there are, category by category. Where more courses are wanted, a category
is chosen for each, and the course is the advanced edition of one of its
templates, or a course made up from the name of a category that has none.

A course is given by an instructor whose specialty is the category, as
long as there is such an instructor, and by any instructor otherwise.
-/

namespace Academy

variable {Ref Date : Type}

/-- **What a course is about**: all of it that is known before it has a
category and an instructor and before anything is drawn for it. -/
structure CourseContent where
  /-- The title. -/
  title : String
  /-- What the course teaches. -/
  description : String
  /-- Words it is found by. -/
  tags : List String
  /-- What it costs. -/
  price : Binary64
  /-- How long it takes. -/
  hours : Binary64

/-- **How courses of a kind do**: the bounds of what is drawn for them. -/
structure CourseRecord where
  /-- How they are rated. -/
  ratings : UniformRange
  /-- How many students they have. -/
  enrolled : Span

namespace CourseRecord

/-- Courses of the catalog. -/
def established : CourseRecord where
  ratings := .known 3.8 5 (by decide +kernel)
  enrolled := ⟨50, 2000⟩

/-- Other courses. -/
def additional : CourseRecord where
  ratings := .known 3.5 5 (by decide +kernel)
  enrolled := ⟨20, 1500⟩

end CourseRecord

namespace CourseTemplate

/-- The course as it stands in the catalog. -/
def content (template : CourseTemplate) : CourseContent :=
  ⟨template.title, template.description, template.tags, template.price, template.hours⟩

/-- **The advanced edition**, half as much again in price and a fifth longer. -/
def advanced (template : CourseTemplate) : CourseContent where
  title := template.title ++ " - Advanced Edition"
  description := "Advanced version: " ++ template.description
  tags := template.tags
  price := (template.price * 1.5).roundTo 2
  hours := (template.hours * 1.2).roundTo 1

end CourseTemplate

namespace CourseContent

/-- How many hours a made-up course takes. -/
def fillerHours : Span := ⟨20, 50⟩

/-- **A course made up from the name of a category.** -/
def filler (category : String) : Draw CourseContent := do
  let price ← Draw.pick Catalog.fillerPrices (by decide)
  let hours ← Draw.within fillerHours
  pure {
    title := "Complete " ++ category ++ " Course"
    description := "Comprehensive course covering all aspects of " ++ category
    tags := [category, "Complete", "Certification"]
    price
    hours := .ofNat hours }

end CourseContent

namespace Course

/-- How many days ago a course can have been made. -/
def creationDays : Nat := 2 * 365

/-- **A course** of the given content, category and instructor. -/
def draw (timeline : Timeline Date) (record : CourseRecord) (content : CourseContent)
    (category instructor id : Ref) : Draw (Course Ref Date) := do
  let createdAt ← timeline.draw creationDays
  let rating ← record.ratings.drawRounded 2
  let enrolledCount ← Draw.within record.enrolled
  let level ← Draw.pick Level.all (by decide)
  pure {
    id
    title := content.title
    description := content.description
    category
    instructor
    price := content.price
    hours := content.hours
    createdAt
    tags := content.tags
    rating
    enrolledCount := .ofNat enrolledCount
    level }

/-- **The instructor of a category's course**, if there are instructors. -/
def drawInstructor (instructors : List (Instructor Ref)) (category : String) :
    Draw (Option (Instructor Ref)) :=
  let specialists := instructors.filter (·.specialty = category)
  Draw.choose (if specialists.isEmpty then instructors else specialists)

/-- The templates of some categories, each with its category. -/
def templates (categories : List (Category Ref)) : List (Category Ref × CourseTemplate) :=
  categories.flatMap fun c => (Catalog.coursesOf c.name).map fun template => (c, template)

/-- The attempt at a course of the catalog. -/
def established (timeline : Timeline Date) (instructors : List (Instructor Ref))
    (category : Category Ref) (template : CourseTemplate) (id : Ref) :
    Draw (Attempt (Course Ref Date)) := do
  match ← drawInstructor instructors category.name with
  | none => pure .ended
  | some instructor =>
    .made <$> draw timeline .established template.content category.id instructor.id id

/-- The attempt at another course. -/
def additional (timeline : Timeline Date) (categories : List (Category Ref))
    (instructors : List (Instructor Ref)) (id : Ref) : Draw (Attempt (Course Ref Date)) := do
  match ← Draw.choose categories with
  | none => pure .ended
  | some category =>
    match ← drawInstructor instructors category.name with
    | none => pure .ended
    | some instructor =>
      let content ← match ← Draw.choose (Catalog.coursesOf category.name) with
        | some template => pure template.advanced
        | none => CourseContent.filler category.name
      .made <$> draw timeline .additional content category.id instructor.id id

/-- **The courses.** -/
def gather (timeline : Timeline Date) (ids : Nat → Ref) (categories : List (Category Ref))
    (instructors : List (Instructor Ref)) (count : Nat) : Draw (List (Course Ref Date)) := do
  let first ← Draw.gather (fun place =>
    match (templates categories)[place]? with
    | some (category, template) =>
      established timeline instructors category template (ids place)
    | none => pure .ended) count 0
  let rest ← Draw.gather (fun place =>
    additional timeline categories instructors (ids place)) (count - first.length) first.length
  pure (first ++ rest)

end Course

end Academy
