import Academy.Proofs.Generation.Failing

/-!
# Courses come from the catalog

Courses are made for any categories and any instructors, not only for
those of the catalog: names can be foreign to it, and names and
identifiers can occur again and again. What a course is about is settled
by its place. As far as the templates of the categories go, each course is
the one of the template at its place; every later one is an advanced
edition for a category that has templates, and made up for one that has
none. Who gives it depends on its category alone.

The boundary lies where the templates end or the number of courses does,
whichever comes first, and it is the only place at which the two loops
could disagree with each other.
-/

namespace Academy

variable {Ref Date : Type} {E : DrawError → Prop}

/-! ## What courses are about -/

/-- What a course is about. -/
def Course.content (course : Course Ref Date) : CourseContent :=
  ⟨course.title, course.description, course.tags, course.price, course.hours⟩

/-- **What a course of a category can be about** that is not one of the catalog. -/
inductive CourseContent.Additional (category : String) : CourseContent → Prop
  /-- An advanced edition costs half as much again and takes a fifth longer. -/
  | advanced {template : CourseTemplate} (h : template ∈ Catalog.coursesOf category) :
    Additional category {
      title := template.title ++ " - Advanced Edition"
      description := "Advanced version: " ++ template.description
      tags := template.tags
      price := (template.price * 1.5).roundTo 2
      hours := (template.hours * 1.2).roundTo 1 }
  /-- A course is made up where the catalog has none. -/
  | filler (hnone : Catalog.coursesOf category = []) {price : Binary64}
      (hprice : price ∈ Catalog.fillerPrices) {hours : Nat} (hleast : 20 ≤ hours)
      (hmost : hours ≤ 50) :
    Additional category {
      title := "Complete " ++ category ++ " Course"
      description := "Comprehensive course covering all aspects of " ++ category
      tags := [category, "Complete", "Certification"]
      price
      hours := .ofNat hours }

/-- **A course of a category**, with the given content: it is given by a specialist
as soon as there is one. -/
structure Course.MadeFor (instructors : List (Instructor Ref)) (category : Category Ref)
    (content : CourseContent) (course : Course Ref Date) : Prop where
  /-- What it is about. -/
  about : course.content = content
  /-- It belongs to the category. -/
  belongs : course.category = category.id
  /-- Its instructor is there, and teaches the category if anybody does. -/
  taught : ∃ instructor ∈ instructors, course.instructor = instructor.id ∧
    ((∃ other ∈ instructors, other.specialty = category.name) →
      instructor.specialty = category.name)

/-- **A course that is not one of the catalog**, of one of some categories. -/
def Course.IsAdditional (categories : List (Category Ref)) (instructors : List (Instructor Ref))
    (course : Course Ref Date) : Prop :=
  ∃ category ∈ categories, ∃ content,
    CourseContent.Additional category.name content ∧ course.MadeFor instructors category content

/-- **What is known of a course by its place.** -/
structure Course.MadeAt (categories : List (Category Ref)) (instructors : List (Instructor Ref))
    (place : Nat) (course : Course Ref Date) : Prop where
  /-- Where there is a template, the course is that of the template. -/
  established : ∀ category template, (templates categories)[place]? = some (category, template) →
    course.MadeFor instructors category
      ⟨template.title, template.description, template.tags, template.price, template.hours⟩
  /-- Where there is none, the course is another one of a category. -/
  additional : (templates categories).length ≤ place →
    course.IsAdditional categories instructors

/-- **The courses that are made** of some categories and instructors. -/
structure Course.FromCatalog (categories : List (Category Ref))
    (instructors : List (Instructor Ref)) (count : Nat) (courses : List (Course Ref Date)) :
    Prop where
  /-- There are none without categories or without instructors. -/
  none : categories = [] ∨ instructors = [] → courses = []
  /-- Otherwise there are as many as there are to be. -/
  length : categories ≠ [] → instructors ≠ [] → courses.length = count
  /-- They are known by their places. -/
  placed : ∀ n (course : Course Ref Date), courses[n]? = some course → course.MadeAt categories instructors n

/-! ## Making them -/

theorem CourseContent.filler_additional {category : String}
    (hnone : Catalog.coursesOf category = []) :
    (filler category).Gives E (Additional category) :=
  (Draw.pick_gives _ _).bind fun _ hprice =>
    (Draw.within_gives (by decide)).bind fun _ hhours =>
      Draw.gives_pure (.filler hnone hprice hhours.1 hhours.2)

namespace Course

variable {timeline : Timeline Date} {categories : List (Category Ref)}
  {instructors : List (Instructor Ref)} {id : Ref}

theorem draw_madeFor (hE : timeline.reach < creationDays → E .beforeCalendar)
    (record : CourseRecord) (content : CourseContent) {category : Category Ref}
    {instructor : Instructor Ref} (hinstructor : instructor ∈ instructors)
    (htaught : instructor.specialty = category.name ∨
      ∀ other ∈ instructors, other.specialty ≠ category.name) :
    (draw timeline record content category.id instructor.id id).Gives E
      (MadeFor instructors category content) := by
  refine (timeline.draw_gives_any (Nat.le_refl _) hE).bind fun createdAt _ => ?_
  refine Draw.Gives.bind (record.ratings.drawRounded_failsOnly 2) fun rating _ => ?_
  refine Draw.Gives.bind (Draw.within_failsOnly record.enrolled) fun enrolledCount _ => ?_
  refine (Draw.pick_gives _ _).bind fun level _ => Draw.gives_pure ⟨rfl, rfl, ?_⟩
  refine ⟨instructor, hinstructor, rfl, fun ⟨other, hother, hspecialty⟩ => ?_⟩
  exact htaught.resolve_right fun hnone => hnone other hother hspecialty

theorem established_madeFor (hE : timeline.reach < creationDays → E .beforeCalendar)
    (hinstructors : instructors ≠ []) (category : Category Ref) (template : CourseTemplate) :
    (established timeline instructors category template id).Gives E (fun outcome =>
      ∃ course, outcome = .made course ∧
        course.MadeFor instructors category template.content) := by
  refine (drawInstructor_gives hinstructors _).bind fun o ho => ?_
  obtain ⟨instructor, hinstructor, rfl, htaught⟩ := ho
  exact (draw_madeFor hE _ _ hinstructor htaught).made

theorem additional_madeFor (hE : timeline.reach < creationDays → E .beforeCalendar)
    (hcategories : categories ≠ []) (hinstructors : instructors ≠ []) :
    (additional timeline categories instructors id).Gives E (fun outcome =>
      ∃ course, outcome = .made course ∧ course.IsAdditional categories instructors) := by
  refine (Draw.choose_gives _).bind fun o hcategory => ?_
  rcases o with _ | category
  · exact absurd hcategory hcategories
  refine (drawInstructor_gives hinstructors _).bind fun o ho => ?_
  obtain ⟨instructor, hinstructor, rfl, htaught⟩ := ho
  have hmade (content : CourseContent)
      (hcontent : CourseContent.Additional category.name content) :
        (Attempt.made <$> draw timeline .additional content category.id instructor.id id).Gives
        E (fun outcome =>
          ∃ course, outcome = .made course ∧ course.IsAdditional categories instructors) :=
    ((draw_madeFor hE _ content hinstructor htaught).imp fun _ h =>
      ⟨category, hcategory, content, hcontent, h⟩).made
  refine (Draw.choose_gives _).bind fun o htemplate => ?_
  rcases o with _ | template
  · exact (CourseContent.filler_additional htemplate).bind hmade
  · have hadvanced : CourseContent.Additional category.name template.advanced :=
      .advanced htemplate
    exact (Draw.gives_pure hadvanced).bind hmade

/-- **The courses of any categories and instructors.** -/
theorem gather_fromCatalog {ids : Nat → Ref} {count : Nat}
    (hE : timeline.reach < creationDays ∧ categories ≠ [] ∧ instructors ≠ [] →
      E .beforeCalendar) :
    (gather timeline ids categories instructors count).Gives E
      (FromCatalog categories instructors count) := by
  by_cases hnone : categories = [] ∨ instructors = []
  · refine (gather_gives_nil hnone).imp fun courses hcourses => ?_
    subst hcourses
    exact ⟨fun _ => rfl, fun hcategories hinstructors =>
      absurd hnone (not_or.mpr ⟨hcategories, hinstructors⟩),
      fun _ _ h => nomatch List.getElem?_nil.symm.trans h⟩
  · obtain ⟨hcategories, hinstructors⟩ := not_or.mp hnone
    replace hE : timeline.reach < creationDays → E .beforeCalendar :=
      fun hreach => hE ⟨hreach, hcategories, hinstructors⟩
    have hgather : (gather timeline ids categories instructors count).Gives E
        (fun courses => courses.length = count ∧
          PlacedFrom 0 (MadeAt categories instructors) courses) := by
      refine gather_gives_placed (fun n category template _ htemplate => ?_) fun n _ hend => ?_
      · refine (established_madeFor hE hinstructors category template).imp ?_
        rintro _ ⟨course, rfl, hcourse⟩
        refine ⟨course, rfl, fun category' template' htemplate' => ?_, fun hend => ?_⟩
        · obtain ⟨rfl, rfl⟩ := Prod.mk.inj (Option.some.inj (htemplate.symm.trans htemplate'))
          exact hcourse
        · exact absurd (List.getElem?_eq_some_iff.mp htemplate).1 (Nat.not_lt.mpr hend)
      · refine (additional_madeFor hE hcategories hinstructors).imp ?_
        rintro _ ⟨course, rfl, hcourse⟩
        refine ⟨course, rfl, fun category template htemplate => ?_, fun _ => hcourse⟩
        exact absurd (List.getElem?_eq_some_iff.mp htemplate).1 (Nat.not_lt.mpr hend)
    exact hgather.imp fun courses h => ⟨fun h' => absurd h' hnone, fun _ _ => h.1,
      fun n course hn => Nat.zero_add n ▸ h.2 n course hn⟩

end Course

/-- **Courses are made of any categories and any instructors**, whatever their names
and what they are known by, and whatever words are read. There are none where
there are no categories or no instructors, and otherwise as many as there are to
be. As far as there are templates, each course is the one of the template at its
place, the templates of the categories following one another; each later course
is an advanced edition of one of the templates of a category, or made up from the
name of a category that has no templates. A course is given by an instructor
whose specialty is its category, wherever there is one. There are no courses at
all only where there is no room for them, or where the calendar does not reach
back as far as the dates of courses do. -/
theorem Dataset.drawRecords_fromCatalog (d : Dataset Ref Date) (counts : Counts)
    (timeline : Timeline Date) (ids : Nat → Ref) (room : Nat) (stream : WordStream) :
    (∃ courses : List (Course Ref Date),
      ((drawRecords room counts timeline ids d .courses).readFrom stream).1 = .ok courses ∧
        Course.FromCatalog d.categories d.instructors counts.courses courses) ∨
    ∃ e, ((drawRecords room counts timeline ids d .courses).readFrom stream).1 = .error e ∧
      Collection.courses.Hinders room counts timeline
        (d.categories ≠ [] ∧ d.instructors ≠ []) e := by
  have hgives : (drawRecords room counts timeline ids d .courses).Gives
      (Collection.courses.Hinders room counts timeline (d.categories ≠ [] ∧ d.instructors ≠ []))
      (Course.FromCatalog d.categories d.instructors counts.courses) :=
    (Draw.reserve_gives id).bind fun _ _ => Course.gather_fromCatalog id
  exact hgives.outcome stream

end Academy
