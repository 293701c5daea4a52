import Academy.Generation.Dataset
import Academy.Proofs.Generation.Gather

/-!
# What is made is sound

The rules for records are written down twice: in how records are made, and
in how they are checked. Here is what the first says, without reference to
the second. A record is *sound* if it refers to records that there are,
and if its numbers lie where making puts them; each kind of record is made
by a draw of which nothing but a sound record can come.

Numbers that are rounded to decimal places are counted in units of the
last place (`HasPlaces`). That says more than a check of bounds would need
– it is also what makes the numbers survive being written and read.

The one rule that looks beyond the records which a course names is that on
specialties. Making a course looks for instructors whose specialty is the
category, and takes others only if it has found none, so what a sound
course says is exactly this alternative.
-/

namespace Academy

open Binary64

variable {Ref Date : Type} {E : DrawError → Prop}

/-- How many days back the dates of a collection's records lie at most. -/
def Collection.daysBack : Collection → Nat
  | .categories => 0
  | .instructors => 0
  | .students => Student.registrationDays
  | .courses => Course.creationDays
  | .enrollments => Enrollment.enrollmentDays
  | .reviews => Review.writingDays
  | .payments => Payment.paymentDays

/-- How many days back a date lies at most. -/
def earliestDays : Nat := Collection.students.daysBack

theorem Collection.daysBack_le (c : Collection) : c.daysBack ≤ earliestDays := by
  cases c <;> decide

theorem Timeline.draw_gives_any (timeline : Timeline Date) {most days : Nat}
    (hmost : most ≤ days) (hE : timeline.reach < days → E .beforeCalendar) :
    (timeline.draw most).Gives E (fun _ => True) :=
  (timeline.draw_gives fun h => hE (h.trans_le hmost)).imp fun _ _ => trivial

/-! ## Instructors and students -/

/-- **An instructor as they are made.** -/
structure Instructor.Sound (instructor : Instructor Ref) : Prop where
  /-- They are rated between 4.2 and 5. -/
  rating : HasPlaces 2 420 500 instructor.rating

theorem Instructor.ratings_covers : Instructor.ratings.Covers 2 420 500 := by decide +kernel

theorem Instructor.draw_gives (template : InstructorTemplate) (id : Ref) :
    (Instructor.draw template id).Gives E
      (fun instructor => instructor.id = id ∧ instructor.specialty = template.specialty ∧
        instructor.Sound) := by
  refine (UniformRange.drawRounded_gives ratings_covers).bind fun rating hrating => ?_
  refine (Draw.within_gives (by decide)).bind fun total _ => Draw.gives_pure ?_
  exact ⟨rfl, rfl, ⟨hrating⟩⟩

theorem Student.draw_gives {timeline : Timeline Date} {status : StudentStatus} {id : Ref}
    (hE : timeline.reach < registrationDays → E .beforeCalendar) :
    (Student.draw timeline status id).Gives E (fun student => student.id = id) := by
  refine (Draw.pick_gives _ _).bind fun first _ => ?_
  refine (Draw.pick_gives _ _).bind fun last _ => ?_
  refine (Draw.short_gives (by decide)).bind fun number _ => ?_
  refine (Draw.pick_gives _ _).bind fun country _ => ?_
  refine (timeline.draw_gives_any (Nat.le_refl _) hE).bind fun registeredAt _ => ?_
  refine (Draw.short_gives (by decide)).bind fun age _ => Draw.gives_pure ?_
  rfl

/-! ## Courses -/

/-- How much a course can cost at most, in hundredths. -/
def Course.greatestPrice : Nat := 100000

/-- How long a course can take at most, in tenths. -/
def Course.greatestHours : Nat := 100000

/-- **What a course can be about**: something has to be paid, and it takes
some time. -/
structure CourseContent.Sound (content : CourseContent) : Prop where
  /-- What it costs. -/
  price : HasPlaces 2 1 Course.greatestPrice content.price
  /-- How long it takes. -/
  hours : HasPlaces 1 1 Course.greatestHours content.hours

/-- **A course as it is made** for some categories and instructors. -/
structure Course.Sound (categories : List (Category Ref)) (instructors : List (Instructor Ref))
    (course : Course Ref Date) : Prop where
  /-- It is given by a specialist of its category, or there is none. -/
  taught : ∃ category ∈ categories, ∃ instructor ∈ instructors,
    course.category = category.id ∧ course.instructor = instructor.id ∧
      (instructor.specialty = category.name ∨
        ∀ other ∈ instructors, other.specialty ≠ category.name)
  /-- What it costs. -/
  price : HasPlaces 2 1 greatestPrice course.price
  /-- How long it takes. -/
  hours : HasPlaces 1 1 greatestHours course.hours
  /-- How it is rated. -/
  rating : HasPlaces 2 350 500 course.rating

namespace Course

theorem established_covers : CourseRecord.established.ratings.Covers 2 350 500 := by
  decide +kernel

theorem additional_covers : CourseRecord.additional.ratings.Covers 2 350 500 := by
  decide +kernel

/-- **The instructor of a category's course.** -/
theorem drawInstructor_gives {instructors : List (Instructor Ref)} (h : instructors ≠ [])
    (category : String) :
    (drawInstructor instructors category).Gives E (fun o => ∃ instructor ∈ instructors,
      o = some instructor ∧ (instructor.specialty = category ∨
        ∀ other ∈ instructors, other.specialty ≠ category)) := by
  unfold drawInstructor
  dsimp only
  split
  · next hnone =>
    refine (Draw.choose_gives _).imp fun o ho => ?_
    rcases o with _ | instructor
    · exact absurd ho h
    · refine ⟨instructor, ho, rfl, .inr fun other hother hspecialty => ?_⟩
      rw [List.isEmpty_iff, List.filter_eq_nil_iff] at hnone
      exact hnone other hother (decide_eq_true hspecialty)
  · next hsome =>
    refine (Draw.choose_gives _).imp fun o ho => ?_
    rcases o with _ | instructor
    · exact absurd (List.isEmpty_iff.mpr ho) hsome
    · obtain ⟨hmem, hspecialty⟩ := List.mem_filter.mp ho
      exact ⟨instructor, hmem, rfl, .inl (of_decide_eq_true hspecialty)⟩

/-- **A course** of sound content. -/
theorem draw_gives {timeline : Timeline Date} {record : CourseRecord} {content : CourseContent}
    {categories : List (Category Ref)} {instructors : List (Instructor Ref)}
    {category : Category Ref} {instructor : Instructor Ref} {id : Ref}
    (hE : timeline.reach < creationDays → E .beforeCalendar)
    (hratings : record.ratings.Covers 2 350 500)
    (henrolled : record.enrolled.low ≤ record.enrolled.high) (hcontent : content.Sound)
    (hcategory : category ∈ categories) (hinstructor : instructor ∈ instructors)
    (htaught : instructor.specialty = category.name ∨
      ∀ other ∈ instructors, other.specialty ≠ category.name) :
    (draw timeline record content category.id instructor.id id).Gives E
      (fun course => course.id = id ∧ course.Sound categories instructors) := by
  refine (timeline.draw_gives_any (Nat.le_refl _) hE).bind fun createdAt _ => ?_
  refine (UniformRange.drawRounded_gives hratings).bind fun rating hrating => ?_
  refine (Draw.within_gives henrolled).bind fun enrolled _ => ?_
  refine (Draw.pick_gives _ _).bind fun level _ => Draw.gives_pure ⟨rfl, ?_⟩
  exact ⟨⟨category, hcategory, instructor, hinstructor, rfl, rfl, htaught⟩, hcontent.price,
    hcontent.hours, hrating⟩

end Course

/-! ## What the catalog has courses about -/

/-- Counts what content costs and how long it takes, which can be evaluated. -/
theorem CourseContent.Sound.of_countUnits {content : CourseContent}
    (hprice : 1 ≤ countUnits 100 content.price ∧
      countUnits 100 content.price ≤ Course.greatestPrice ∧
      content.price = round false (countUnits 100 content.price * one) 100)
    (hhours : 1 ≤ countUnits 10 content.hours ∧
      countUnits 10 content.hours ≤ Course.greatestHours ∧
      content.hours = round false (countUnits 10 content.hours * one) 10) : content.Sound where
  price := .of_countUnits placesFactor_two (by decide) (by decide) (by decide) hprice
  hours := .of_countUnits placesFactor_one (by decide) (by decide) (by decide) hhours

namespace Catalog

/-- **The courses of the catalog and their advanced editions are sound.** -/
theorem sound_of_mem {category : CategoryTemplate} (hcategory : category ∈ categories)
    {template : CourseTemplate} (htemplate : template ∈ category.courses) :
    template.content.Sound ∧ template.advanced.Sound := by
  have hall : ∀ c ∈ categories, ∀ t ∈ c.courses, ∀ content ∈ [t.content, t.advanced],
      (1 ≤ countUnits 100 content.price ∧
        countUnits 100 content.price ≤ Course.greatestPrice ∧
        content.price = round false (countUnits 100 content.price * one) 100) ∧
      (1 ≤ countUnits 10 content.hours ∧
        countUnits 10 content.hours ≤ Course.greatestHours ∧
        content.hours = round false (countUnits 10 content.hours * one) 10) := by
    decide +kernel
  have hsound : ∀ content ∈ [template.content, template.advanced], content.Sound :=
    fun content h =>
      have ⟨hprice, hhours⟩ := hall category hcategory template htemplate content h
      .of_countUnits hprice hhours
  exact ⟨hsound _ (by simp), hsound _ (by simp)⟩

theorem sound_of_mem_coursesOf {category : String} {template : CourseTemplate}
    (h : template ∈ coursesOf category) : template.content.Sound ∧ template.advanced.Sound := by
  unfold coursesOf at h
  split at h
  · next c hc => exact sound_of_mem (List.mem_of_find?_eq_some hc) h
  · exact nomatch h

end Catalog

/-- **A course that is made up is sound.** -/
theorem CourseContent.filler_gives (category : String) :
    (filler category).Gives E CourseContent.Sound := by
  refine (Draw.pick_gives _ _).bind fun price hprice => ?_
  refine (Draw.within_gives (by decide)).bind fun hours hhours => Draw.gives_pure ?_
  have hprices : ∀ price ∈ Catalog.fillerPrices, 1 ≤ countUnits 100 price ∧
      countUnits 100 price ≤ Course.greatestPrice ∧
      price = round false (countUnits 100 price * one) 100 := by
    decide +kernel
  have hspan : 20 ≤ hours ∧ hours ≤ 50 := hhours
  refine ⟨?_, ?_⟩
  · exact .of_countUnits placesFactor_two (by decide) (by decide) (by decide)
      (hprices price hprice)
  · have hwhole : HasPlaces 1 (hours * 10) (hours * 10) (.ofNat hours) :=
      .whole placesFactor_one (by decide) (by decide) (by omega)
    exact hwhole.mono (by omega) (by unfold Course.greatestHours; omega)

end Academy
