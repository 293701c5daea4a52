import Academy.Proofs.Generation.Participation
import Academy.Proofs.Records.Renaming

/-!
# A dataset is made as it is asked for

Numbers of records that can be met are met: each collection has as many
records as it is to have, all of them are sound, and they are known, one
after the other through the collections, by what is given for their
places. Nothing is assumed of what they are known by, and nothing of how
many there are; where there is no room for a collection, there is no
dataset.

Numbers that cannot be met can be drawn for all the same. The catalog then
ends early, or there is nothing that courses and what students do could
refer to, and what comes of the numbers is `Counts.met`. So the check of
the numbers is exact: it refuses those that are missed and no others.

`Dataset.draw_gives_met` says all of that of every stream of words, and it
is the last that has to be said about words: what follows here and
elsewhere follows from a dataset's being sound.
-/

namespace Academy

variable {Ref Date : Type} {E : DrawError → Prop}

/-! ## Counts that can be met -/

/-- **What numbers of records can be met.** -/
theorem Counts.validate_eq_ok_iff (counts : Counts) :
    counts.validate = .ok () ↔
      counts.categories ≤ Catalog.categories.length ∧
      counts.instructors ≤ Catalog.instructors.length ∧
      (0 < counts.courses → 0 < counts.categories ∧ 0 < counts.instructors) ∧
      (0 < counts.enrollments ∨ 0 < counts.reviews ∨ 0 < counts.payments →
        0 < counts.students ∧ 0 < counts.courses) := by
  unfold validate
  split
  · next h => exact iff_of_false nofun fun ⟨h', _⟩ => absurd h (Nat.not_lt.mpr h')
  · next hcategories =>
    split
    · next h => exact iff_of_false nofun fun ⟨_, h', _⟩ => absurd h (Nat.not_lt.mpr h')
    · next hinstructors =>
      split
      · next h =>
        refine iff_of_false nofun fun ⟨_, _, h', _⟩ => ?_
        have := h' h.1
        omega
      · next hcourses =>
        split
        · next h =>
          refine iff_of_false nofun fun ⟨_, _, _, h'⟩ => ?_
          have := h' h.1
          omega
        · next hparticipation =>
          refine iff_of_true rfl ⟨?_, ?_, ?_, ?_⟩ <;> omega

namespace Counts

/-- How many courses come of numbers of records: none without categories or
without instructors. -/
def metCourses (counts : Counts) : Nat :=
  if counts.categories = 0 ∨ counts.instructors = 0 then 0 else counts.courses

/-- How many records come of a number of enrollments, reviews or payments: none
without students or without courses. -/
def metParticipation (counts : Counts) (count : Nat) : Nat :=
  if counts.students = 0 ∨ counts.metCourses = 0 then 0 else count

/-- **What comes of numbers of records**, whether or not they can be met. -/
def met (counts : Counts) : Counts where
  categories := min counts.categories Catalog.categories.length
  instructors := min counts.instructors Catalog.instructors.length
  students := counts.students
  courses := counts.metCourses
  enrollments := counts.metParticipation counts.enrollments
  reviews := counts.metParticipation counts.reviews
  payments := counts.metParticipation counts.payments

theorem metCourses_eq_iff (counts : Counts) :
    counts.metCourses = counts.courses ↔
      (0 < counts.courses → 0 < counts.categories ∧ 0 < counts.instructors) := by
  unfold metCourses
  split <;> omega

theorem metParticipation_eq_iff (counts : Counts) (count : Nat) :
    counts.metParticipation count = count ↔
      (0 < count → 0 < counts.students ∧ 0 < counts.metCourses) := by
  unfold metParticipation
  split <;> omega

/-- **Numbers that can be met are those of which nothing is missed.** -/
@[simp]
theorem met_eq_self_iff (counts : Counts) : counts.met = counts ↔ counts.validate = .ok () := by
  have hfields : counts.met = counts ↔
      min counts.categories Catalog.categories.length = counts.categories ∧
      min counts.instructors Catalog.instructors.length = counts.instructors ∧
      counts.students = counts.students ∧
      counts.metCourses = counts.courses ∧
      counts.metParticipation counts.enrollments = counts.enrollments ∧
      counts.metParticipation counts.reviews = counts.reviews ∧
      counts.metParticipation counts.payments = counts.payments := by
    rw [met, ← PerCollection.mk.injEq]
  rw [hfields, validate_eq_ok_iff, metCourses_eq_iff, metParticipation_eq_iff,
    metParticipation_eq_iff, metParticipation_eq_iff]
  constructor
  · rintro ⟨hcategories, hinstructors, -, hcourses, henrollments, hreviews, hpayments⟩
    rw [(metCourses_eq_iff counts).mpr hcourses] at henrollments hreviews hpayments
    exact ⟨by omega, by omega, hcourses, fun h =>
      h.elim henrollments fun h => h.elim hreviews hpayments⟩
  · rintro ⟨hcategories, hinstructors, hcourses, hparticipation⟩
    rw [(metCourses_eq_iff counts).mpr hcourses]
    exact ⟨Nat.min_eq_left hcategories, Nat.min_eq_left hinstructors, rfl, hcourses,
      fun h => hparticipation (.inl h), fun h => hparticipation (.inr (.inl h)),
      fun h => hparticipation (.inr (.inr h))⟩

end Counts

/-! ## The collections -/

section

variable {timeline : Timeline Date} {ids : Nat → Ref} {count : Nat}

@[simp] theorem Category.gather_length :
    (gather ids count).length = min count Catalog.categories.length := by
  rw [gather, List.length_mapIdx, List.length_take]

theorem Category.gather_placed :
    PlacedFrom 0 (fun n category => category.id = ids n) (gather ids count) := by
  intro n category h
  rw [gather, List.getElem?_mapIdx, Option.map_eq_some_iff] at h
  obtain ⟨template, -, rfl⟩ := h
  rw [Nat.zero_add]
  rfl

/-- **The instructors** are as many as there are to be, up to the end of the
catalog. -/
theorem Instructor.gather_gives :
    (gather ids count).Gives E (fun instructors =>
      instructors.length = min count Catalog.instructors.length ∧
        PlacedFrom 0 (fun n i => i.id = ids n ∧ i.Sound) instructors) := by
  refine Draw.gather_gives (Nat.min_le_left _ _) 0 (fun n _ hn => ?_) fun h => ?_
  · rw [List.getElem?_eq_getElem (show n < Catalog.instructors.length by omega)]
    exact ((draw_gives _ _).imp fun _ h => ⟨h.1, h.2.2⟩).made
  · rw [List.getElem?_eq_none (by omega)]
    exact Draw.gives_pure rfl

theorem Student.gather_gives (hE : timeline.reach < registrationDays → E .beforeCalendar) :
    (gather timeline ids count).Gives E (fun students => students.length = count ∧
      PlacedFrom 0 (fun n s => s.id = ids n) students) :=
  Draw.gather_gives_all fun _ _ _ =>
    (StudentStatus.choice.draw_gives).bind fun _ _ => (draw_gives hE).made

namespace Course

variable {categories : List (Category Ref)} {instructors : List (Instructor Ref)}

theorem established_gives {category : Category Ref} {template : CourseTemplate} {id : Ref}
    (hE : timeline.reach < creationDays → E .beforeCalendar) (hinstructors : instructors ≠ [])
    (h : (category, template) ∈ templates categories) :
    (established timeline instructors category template id).Gives E (fun outcome =>
      ∃ course, outcome = .made course ∧ course.id = id ∧
        course.Sound categories instructors) := by
  obtain ⟨c, hcategory, hc⟩ := List.mem_flatMap.mp h
  obtain ⟨t, htemplate, heq⟩ := List.mem_map.mp hc
  obtain ⟨rfl, rfl⟩ := Prod.mk.inj heq
  refine (drawInstructor_gives hinstructors _).bind fun o ho => ?_
  obtain ⟨instructor, hinstructor, rfl, htaught⟩ := ho
  exact (draw_gives hE established_covers (by decide)
    (Catalog.sound_of_mem_coursesOf htemplate).1 hcategory hinstructor htaught).made

theorem additional_gives {id : Ref} (hE : timeline.reach < creationDays → E .beforeCalendar)
    (hcategories : categories ≠ []) (hinstructors : instructors ≠ []) :
    (additional timeline categories instructors id).Gives E (fun outcome =>
      ∃ course, outcome = .made course ∧ course.id = id ∧
        course.Sound categories instructors) := by
  refine (Draw.choose_gives _).bind fun o hcategory => ?_
  rcases o with _ | category
  · exact absurd hcategory hcategories
  · refine (drawInstructor_gives hinstructors _).bind fun o ho => ?_
    obtain ⟨instructor, hinstructor, rfl, htaught⟩ := ho
    refine (Draw.choose_gives _).bind fun o htemplate => ?_
    -- what the course is about is settled in two ways, and the rest does not depend on it
    have hmade (content : CourseContent) (hcontent : content.Sound) :
        (Attempt.made <$> draw timeline .additional content category.id instructor.id id).Gives
          E _ :=
      (draw_gives hE additional_covers (by decide) hcontent hcategory hinstructor htaught).made
    rcases o with _ | template
    · exact (CourseContent.filler_gives _).bind hmade
    · exact (Draw.gives_pure (Catalog.sound_of_mem_coursesOf htemplate).2).bind hmade

/-- **The courses**: those of the catalog, and others up to their number. What is
known of the tries at each place is known of the courses there. -/
theorem gather_gives_placed {P : Nat → Course Ref Date → Prop}
    (hestablished : ∀ n category template, n < count →
      (templates categories)[n]? = some (category, template) →
      (established timeline instructors category template (ids n)).Gives E
        (fun outcome => ∃ course, outcome = .made course ∧ P n course))
    (hadditional : ∀ n, n < count → (templates categories).length ≤ n →
      (additional timeline categories instructors (ids n)).Gives E
        (fun outcome => ∃ course, outcome = .made course ∧ P n course)) :
    (gather timeline ids categories instructors count).Gives E
      (fun courses => courses.length = count ∧ PlacedFrom 0 P courses) := by
  -- the catalog ends the first loop, unless the count does
  unfold gather
  refine Draw.Gives.bind
    (P := fun courses => courses.length = min count (templates categories).length ∧
      PlacedFrom 0 P courses) ?_ ?_
  · refine Draw.gather_gives (Nat.min_le_left _ _) 0 (fun n _ hn => ?_) fun h => ?_
    · have hplace : n < (templates categories).length := by omega
      have htemplate := List.getElem?_eq_getElem hplace
      rw [htemplate]
      exact hestablished n _ _ (by omega) htemplate
    · rw [List.getElem?_eq_none (by omega)]
      exact Draw.gives_pure rfl
  intro first hfirst
  refine (Draw.gather_gives_all fun n _ hn => hadditional n (by omega) (by omega)).bind
    fun rest hrest => Draw.gives_pure ⟨?_, ?_⟩
  · rw [List.length_append, hfirst.1, hrest.1]
    omega
  · exact hfirst.2.append (by rw [Nat.zero_add]; exact hrest.2)

/-- **The courses** are sound. -/
theorem gather_gives (hE : timeline.reach < creationDays → E .beforeCalendar)
    (hsome : 0 < count → categories ≠ [] ∧ instructors ≠ []) :
    (gather timeline ids categories instructors count).Gives E
      (fun courses => courses.length = count ∧
        PlacedFrom 0 (fun n c => c.id = ids n ∧ c.Sound categories instructors) courses) :=
  gather_gives_placed
    (fun _ _ _ hn htemplate =>
      established_gives hE (hsome (by omega)).2 (List.mem_of_getElem? htemplate))
    (fun _ hn _ => additional_gives hE (hsome (by omega)).1 (hsome (by omega)).2)

/-- Without categories or without instructors there are no courses. -/
theorem gather_gives_nil (h : categories = [] ∨ instructors = []) :
    (gather timeline ids categories instructors count).Gives E (· = []) := by
  have htaught (name : String) (hinstructors : instructors = []) :
      (drawInstructor instructors name).Gives E (· = none) := by
    subst hinstructors
    exact Draw.gives_pure rfl
  unfold gather
  refine Draw.Gives.bind (P := (· = [])) (Draw.gather_gives_nil fun place => ?_) fun first hfirst =>
    Draw.Gives.bind (P := (· = [])) (Draw.gather_gives_nil fun place => ?_) fun rest hrest => ?_
  · split
    · next category template heq =>
      have hcategories : categories ≠ [] := by
        rintro rfl
        exact nomatch heq
      exact (htaught _ (h.resolve_left hcategories)).bind fun _ ho =>
        ho ▸ Draw.gives_pure rfl
    · exact Draw.gives_pure rfl
  · refine (Draw.choose_gives _).bind fun o ho => ?_
    rcases o with _ | category
    · exact Draw.gives_pure rfl
    · exact (htaught _ (h.resolve_left (List.ne_nil_of_mem ho))).bind fun _ ho =>
        ho ▸ Draw.gives_pure rfl
  · subst hfirst hrest
    exact Draw.gives_pure rfl

end Course

variable {students : List (Student Ref Date)} {courses : List (Course Ref Date)}

/-- Without students or without courses there are no enrollments. -/
theorem Enrollment.gather_gives_nil (h : students = [] ∨ courses = []) :
    (gather timeline ids students courses count).Gives E (· = []) :=
  Draw.gather_gives_nil fun _ => (drawPair_gives_none h).bind fun _ ho => ho ▸ Draw.gives_pure rfl

/-- Without students or without courses there are no reviews. -/
theorem Review.gather_gives_nil (h : students = [] ∨ courses = []) :
    (gather timeline ids students courses count).Gives E (· = []) :=
  Draw.gather_gives_nil fun _ => (drawPair_gives_none h).bind fun _ ho => ho ▸ Draw.gives_pure rfl

/-- Without students or without courses there are no payments. -/
theorem Payment.gather_gives_nil (h : students = [] ∨ courses = []) :
    (gather timeline ids students courses count).Gives E (· = []) :=
  Draw.gather_gives_nil fun _ => (drawPair_gives_none h).bind fun _ ho => ho ▸ Draw.gives_pure rfl

theorem Enrollment.gather_gives (hE : timeline.reach < enrollmentDays → E .beforeCalendar)
    (hsome : 0 < count → students ≠ [] ∧ courses ≠ []) :
    (gather timeline ids students courses count).Gives E
      (fun enrollments => enrollments.length = count ∧
        PlacedFrom 0 (fun n e => e.id = ids n ∧ e.Sound students courses) enrollments) := by
  refine gatherPairs_gives hsome fun student hstudent course hcourse n => ?_
  refine EnrollmentStatus.choice.draw_gives.bind fun status _ => ?_
  exact (draw_gives status hE ⟨⟨student, hstudent, rfl⟩, course, hcourse, rfl⟩).made

theorem Review.gather_gives (hE : timeline.reach < writingDays → E .beforeCalendar)
    (hsome : 0 < count → students ≠ [] ∧ courses ≠ []) :
    (gather timeline ids students courses count).Gives E
      (fun reviews => reviews.length = count ∧
        PlacedFrom 0 (fun n r => r.id = ids n ∧ r.Sound students courses) reviews) := by
  refine gatherPairs_gives hsome fun student hstudent course hcourse n => ?_
  refine ratingChoice.draw_gives.bind fun rating hrating => ?_
  obtain ⟨hspan, hcomments⟩ := ratingChoice_outcomes rating hrating
  exact ((draw_gives hE ⟨⟨student, hstudent, rfl⟩, course, hcourse, rfl⟩ hspan hcomments).imp
    fun _ h => ⟨h.1, h.2.1⟩).made

/-- **The payments** are as many as there are to be, since every course costs
something. -/
theorem Payment.gather_gives (hE : timeline.reach < paymentDays → E .beforeCalendar)
    (hprices : ∀ course ∈ courses, Binary64.HasPlaces 2 1 Course.greatestPrice course.price)
    (hsome : 0 < count → students ≠ [] ∧ courses ≠ []) :
    (gather timeline ids students courses count).Gives E
      (fun payments => payments.length = count ∧
        PlacedFrom 0 (fun n p => p.id = ids n ∧ p.Sound students courses) payments) := by
  refine gatherPairs_gives hsome fun student hstudent course hcourse n => ?_
  have hprice := hprices course hcourse
  refine (drawSkip_gives (equal_zero_of_hasPlaces hprice)).bind fun skip hskip => ?_
  subst hskip
  refine PaymentStatus.choice.draw_gives.bind fun status _ => ?_
  refine ((draw_gives status hE).imp ?_).made
  rintro p ⟨hid, hs, hc, hcurrency, hamount⟩
  exact ⟨hid, ⟨⟨student, hstudent, hs.symm⟩, course, hcourse, hc.symm⟩,
    amount_hasPlaces hprice hamount, hcurrency⟩

end

/-! ## The whole -/

namespace Dataset

/-- **A record that is sound** in a dataset. -/
def Record.Sound (d : Dataset Ref Date) : (c : Collection) → Record Ref Date c → Prop
  | .categories => fun _ => True
  | .instructors => Instructor.Sound
  | .students => fun _ => True
  | .courses => Course.Sound d.categories d.instructors
  | .enrollments => Enrollment.Sound d.students d.courses
  | .reviews => Review.Sound d.students d.courses
  | .payments => Payment.Sound d.students d.courses

/-- **A dataset whose records are sound.** -/
def Sound (d : Dataset Ref Date) : Prop :=
  ∀ c, ∀ r ∈ d.records c, Record.Sound d c r

/-- What the records are known by, one after the other through the
collections. -/
def recordIds (d : Dataset Ref Date) : List Ref :=
  Collection.all.flatMap fun c => (d.records c).map (Record.id c)

/-- **The records of a collection as they are made** after the collections of
`d`, where so many records come before them. -/
structure Made (counts : Counts) (ids : Nat → Ref) (before : Nat) (d : Dataset Ref Date)
    (c : Collection) (rs : List (Record Ref Date c)) : Prop where
  /-- There are as many as there are to be. -/
  length : rs.length = counts.get c
  /-- They are known by their places and sound. -/
  placed : PlacedFrom 0 (fun n r => Record.id c r = ids (before + n) ∧ Record.Sound d c r) rs

namespace Made

variable {counts : Counts} {ids : Nat → Ref} {before : Nat} {d : Dataset Ref Date}
  {c : Collection} {rs : List (Record Ref Date c)}

theorem sound (h : Made counts ids before d c rs) : ∀ r ∈ rs, Record.Sound d c r :=
  h.placed.forall_mem fun _ _ hr => hr.2

theorem map_id (h : Made counts ids before d c rs) :
    rs.map (Record.id c) = (List.range' before (counts.get c)).map ids := by
  rw [(h.placed.imp fun _ _ hr => hr.1).map_eq, h.length, ← Nat.add_zero before,
    ← List.map_add_range', List.map_map]
  rfl

theorem nil (h0 : counts.get c = 0) : Made counts ids before d c [] :=
  ⟨h0.symm, .nil⟩

theorem eq_nil_iff (h : Made counts ids before d c rs) : rs = [] ↔ counts.get c = 0 := by
  rw [← List.length_eq_zero_iff, h.length]

end Made

/-- What has to be known of a dataset before the records of a collection are
made: whether there is anything to make them of. -/
def Ready (counts : Counts) (d : Dataset Ref Date) : Collection → Prop
  | .courses =>
    d.categories = [] ∨ d.instructors = [] ↔ counts.categories = 0 ∨ counts.instructors = 0
  | .enrollments => d.students = [] ∨ d.courses = [] ↔ counts.students = 0 ∨ counts.metCourses = 0
  | .reviews => d.students = [] ∨ d.courses = [] ↔ counts.students = 0 ∨ counts.metCourses = 0
  | .payments =>
    (d.students = [] ∨ d.courses = [] ↔ counts.students = 0 ∨ counts.metCourses = 0) ∧
      ∀ course ∈ d.courses, Binary64.HasPlaces 2 1 Course.greatestPrice course.price
  | _ => True

end Dataset

/-- Room is taken for the records of a collection, unless they are those of the
catalog. -/
def Collection.TakesRoom : Collection → Prop
  | .categories => False
  | .instructors => False
  | _ => True

namespace Dataset

section

variable {room : Nat} {counts : Counts} {timeline : Timeline Date} {ids : Nat → Ref}

/-- **The records of a collection** are made as they are asked for, as far as
there is anything to make them of. -/
theorem drawRecords_gives {before : Nat} {d : Dataset Ref Date} (c : Collection)
    (hE : timeline.reach < c.daysBack → E .beforeCalendar)
    (hroom : ∀ c : Collection, c.TakesRoom → room < counts.get c → E .memory)
    (hready : Ready counts d c) :
    (drawRecords room counts timeline (fun n => ids (before + n)) d c).Gives E
      (Made counts.met ids before d c) := by
  have hreserve (hc : c.TakesRoom) : (Draw.reserve room (counts.get c)).Gives E (fun _ => True) :=
    Draw.reserve_gives (hroom c hc)
  cases c with
  | categories =>
    exact Draw.gives_pure ⟨Category.gather_length,
      Category.gather_placed.imp fun _ _ h => ⟨h, trivial⟩⟩
  | instructors => exact Instructor.gather_gives.imp fun _ h => ⟨h.1, h.2⟩
  | students =>
    exact (hreserve trivial).bind fun _ _ => (Student.gather_gives hE).imp fun _ h =>
      ⟨h.1, h.2.imp fun _ _ h => ⟨h, trivial⟩⟩
  | courses =>
    refine (hreserve trivial).bind fun _ _ => ?_
    by_cases hnone : counts.categories = 0 ∨ counts.instructors = 0
    · exact (Course.gather_gives_nil (hready.mpr hnone)).imp fun _ h => h ▸ .nil (if_pos hnone)
    · exact (Course.gather_gives hE fun _ => not_or.mp (mt hready.mp hnone)).imp fun _ h =>
        ⟨h.1.trans (if_neg hnone).symm, h.2⟩
  | enrollments =>
    refine (hreserve trivial).bind fun _ _ => ?_
    by_cases hnone : counts.students = 0 ∨ counts.metCourses = 0
    · exact (Enrollment.gather_gives_nil (hready.mpr hnone)).imp fun _ h => h ▸ .nil (if_pos hnone)
    · exact (Enrollment.gather_gives hE fun _ => not_or.mp (mt hready.mp hnone)).imp fun _ h =>
        ⟨h.1.trans (if_neg hnone).symm, h.2⟩
  | reviews =>
    refine (hreserve trivial).bind fun _ _ => ?_
    by_cases hnone : counts.students = 0 ∨ counts.metCourses = 0
    · exact (Review.gather_gives_nil (hready.mpr hnone)).imp fun _ h => h ▸ .nil (if_pos hnone)
    · exact (Review.gather_gives hE fun _ => not_or.mp (mt hready.mp hnone)).imp fun _ h =>
        ⟨h.1.trans (if_neg hnone).symm, h.2⟩
  | payments =>
    refine (hreserve trivial).bind fun _ _ => ?_
    by_cases hnone : counts.students = 0 ∨ counts.metCourses = 0
    · exact (Payment.gather_gives_nil (hready.1.mpr hnone)).imp fun _ h => h ▸ .nil (if_pos hnone)
    · exact (Payment.gather_gives hE hready.2 fun _ => not_or.mp (mt hready.1.mp hnone)).imp
        fun _ h => ⟨h.1.trans (if_neg hnone).symm, h.2⟩

/-- **What is made of any numbers of records**: as many records as come of the
numbers, all of them sound, and known by their places. -/
theorem draw_gives_met (hE : timeline.reach < earliestDays → E .beforeCalendar)
    (hroom : ∀ c : Collection, c.TakesRoom → room < counts.get c → E .memory) :
    (draw room counts timeline ids).Gives E (fun d => d.Sound ∧ d.counts = counts.met ∧
      d.recordIds = (List.range counts.met.total).map ids) := by
  have stage {before : Nat} {d : Dataset Ref Date} (c : Collection) (hready : Ready counts d c) :
      (drawRecords room counts timeline (fun n => ids (before + n)) d c).Gives E
        (Made counts.met ids before d c) :=
    drawRecords_gives c (fun h => hE (h.trans_le c.daysBack_le)) hroom hready
  have hfirst : (drawRecords room counts timeline (fun n => ids (0 + n)) {} .categories).Gives E
      (Made counts.met ids 0 {} .categories) :=
    stage .categories trivial
  rw [show (fun n => ids (0 + n)) = ids from funext fun n => by rw [Nat.zero_add]] at hfirst
  -- each collection is made for those before it, and `d` says which these are
  refine hfirst.bind fun (categories : List (Category Ref)) hcat => ?_
  refine (stage (d := { categories }) .instructors trivial).bind
    fun (instructors : List (Instructor Ref)) hins => ?_
  refine (stage (d := { categories, instructors }) .students trivial).bind
    fun (students : List (Student Ref Date)) hstu => ?_
  have htaught : categories = [] ∨ instructors = [] ↔
      counts.categories = 0 ∨ counts.instructors = 0 := by
    rw [show categories = [] ↔ _ from hcat.eq_nil_iff, show instructors = [] ↔ _ from
      hins.eq_nil_iff]
    show min _ 8 = 0 ∨ min _ 15 = 0 ↔ _
    omega
  refine (stage (d := { categories, instructors, students }) .courses htaught).bind
    fun (courses : List (Course Ref Date)) hcou => ?_
  have hpaired : students = [] ∨ courses = [] ↔ counts.students = 0 ∨ counts.metCourses = 0 := by
    rw [show students = [] ↔ _ from hstu.eq_nil_iff, show courses = [] ↔ _ from hcou.eq_nil_iff]
    rfl
  refine (stage (d := { categories, instructors, students, courses }) .enrollments hpaired).bind
    fun (enrollments : List (Enrollment Ref Date)) henr => ?_
  refine (stage (d := { categories, instructors, students, courses, enrollments }) .reviews
    hpaired).bind fun (reviews : List (Review Ref Date)) hrev => ?_
  refine (stage (d := { categories, instructors, students, courses, enrollments, reviews })
    .payments ⟨hpaired, fun c h => (hcou.sound c h).price⟩).bind
      fun (payments : List (Payment Ref Date)) hpay => ?_
  refine Draw.gives_pure ⟨?_, ?_, ?_⟩
  · intro c
    cases c with
    | categories => exact fun _ _ => trivial
    | instructors => exact hins.sound
    | students => exact fun _ _ => trivial
    | courses => exact hcou.sound
    | enrollments => exact henr.sound
    | reviews => exact hrev.sound
    | payments => exact hpay.sound
  · show (⟨categories.length, instructors.length, students.length, courses.length,
      enrollments.length, reviews.length, payments.length⟩ : Counts) = counts.met
    rw [show categories.length = counts.met.categories from hcat.length,
      show instructors.length = counts.met.instructors from hins.length,
      show students.length = counts.met.students from hstu.length,
      show courses.length = counts.met.courses from hcou.length,
      show enrollments.length = counts.met.enrollments from henr.length,
      show reviews.length = counts.met.reviews from hrev.length,
      show payments.length = counts.met.payments from hpay.length]
  · show categories.map (Record.id .categories) ++ (instructors.map (Record.id .instructors) ++
      (students.map (Record.id .students) ++ (courses.map (Record.id .courses) ++
      (enrollments.map (Record.id .enrollments) ++ (reviews.map (Record.id .reviews) ++
      (payments.map (Record.id .payments) ++ [])))))) = _
    rw [hcat.map_id, hins.map_id, hstu.map_id, hcou.map_id, henr.map_id, hrev.map_id, hpay.map_id,
      hcat.length, hins.length, hstu.length, hcou.length, henr.length, hrev.length]
    simp only [← List.map_append, List.append_nil, List.range'_append_1]
    rw [List.range_eq_range']
    refine congrArg (fun n => (List.range' 0 n).map ids) ?_
    simp only [Counts.total, PerCollection.get, Nat.add_assoc]

/-- **A dataset is made as it is asked for**: with the numbers of records that
it is to have, all of them sound, and known by their places. -/
theorem draw_gives (hcounts : counts.validate = .ok ())
    (hE : timeline.reach < earliestDays → E .beforeCalendar)
    (hroom : ∀ c, room < counts.get c → E .memory) :
    (draw room counts timeline ids).Gives E (fun d => d.Sound ∧ d.counts = counts ∧
      d.recordIds = (List.range counts.total).map ids) := by
  have hgives : (draw room counts timeline ids).Gives E _ :=
    draw_gives_met hE fun c _ => hroom c
  rwa [counts.met_eq_self_iff.mpr hcounts] at hgives

end

/-! ## Numbers that are met -/

/-- **Why no dataset is made**: dates are drawn from before the calendar, or
there is no room for a collection. -/
def Fails (room : Nat) (counts : Counts) (timeline : Timeline Date) : DrawError → Prop
  | .beforeCalendar => timeline.reach < earliestDays
  | .memory => ∃ c : Collection, c.TakesRoom ∧ room < counts.get c

theorem counts_eq_iff {d : Dataset Ref Date} {counts : Counts} :
    d.counts = counts ↔ ∀ c, (d.records c).length = counts.get c := by
  constructor
  · rintro rfl c
    cases c <;> rfl
  · intro h
    rw [Dataset.counts, funext h]
    rfl

/-- **Numbers of records are met if and only if they are accepted.** Take any
numbers, accepted or not, any days before the present, anything that records
are known by, and any state of the words. A dataset is made, and all of its
collections have as many records as they are to have exactly where the
numbers are accepted: of numbers that are refused, one at least is missed,
whatever is drawn. There is no dataset only where the calendar does not
reach back as far as dates do, or where there is no room for a collection. -/
theorem draw_meets_iff (counts : Counts) (timeline : Timeline Date) (ids : Nat → Ref)
    (room : Nat) (stream : WordStream) :
    (∃ d, ((draw room counts timeline ids).readFrom stream).1 = .ok d ∧
      ((∀ c, (d.records c).length = counts.get c) ↔ counts.validate = .ok ())) ∨
    ∃ e, ((draw room counts timeline ids).readFrom stream).1 = .error e ∧
      Fails room counts timeline e := by
  have hgives : (draw room counts timeline ids).Gives (Fails room counts timeline) _ :=
    draw_gives_met id fun c hc h => ⟨c, hc, h⟩
  replace hgives := hgives stream
  generalize (Draw.readFrom _ stream).1 = outcome at hgives ⊢
  rcases outcome with e | d
  · exact .inr ⟨e, rfl, hgives⟩
  · refine .inl ⟨d, rfl, ?_⟩
    rw [← counts_eq_iff, hgives.2.1]
    exact counts.met_eq_self_iff

end Dataset

end Academy
