import Academy.Proofs.Generation.Stages

/-!
# Making does not look at names and dates

What records are known by is given from outside, and dates are the present
moved back by days. Neither is looked at when records are made: no draw,
no choice and no end of a loop depends on them. So making records with
other names and in another present is the same as making them and then
putting the other names and dates in their place – as an equation between
draws, which says that both read the same words, have the same outcome
and leave the stream in the same state.

The equation is proved along the way records are made: for a choice from
a list, for the draw of each kind of record, for the loops in which
collections are filled, and for the seven collections one after the
other. At each step a renaming is moved out of the draw, over what comes
before it.
-/

namespace Academy

variable {α β : Type} {Ref Ref' Date Date' : Type}

namespace Draw

/-- Draws are equal that make the same of every stream. -/
theorem ext {draw draw' : Draw α} (h : ∀ stream, draw.readFrom stream = draw'.readFrom stream) :
    draw = draw' :=
  funext h

/-- It only matters how a draw goes on with what can come of the one before. -/
theorem Gives.bind_congr {draw : Draw α} {E : DrawError → Prop} {P : α → Prop}
    {next next' : α → Draw β} (h : draw.Gives E P) (hnext : ∀ a, P a → next a = next' a) :
    draw >>= next = draw >>= next' := by
  refine ext fun stream => ?_
  have hdraw := h stream
  rw [readFrom_bind, readFrom_bind]
  generalize readFrom draw stream = outcome at hdraw
  rcases outcome with ⟨e | a, rest⟩
  · rfl
  · exact congrArg (readFrom · rest) (hnext a hdraw)

/-! ## Choices and loops -/

theorem pick_map (f : α → β) (items : List α) (h : 0 < (items.map f).length)
    (h' : 0 < items.length) : pick (items.map f) h = f <$> pick items h' := by
  have hitem (n : Nat) : (items.map f)[n]?.getD (items.map f)[0] = f (items[n]?.getD items[0]) := by
    rw [List.getElem?_map, List.getElem_map, Option.getD_map]
  unfold pick
  rw [List.length_map, map_bind]
  simp only [map_pure, hitem]

/-- A choice from changed items is a changed choice. -/
@[simp] theorem choose_map (f : α → β) (items : List α) :
    choose (items.map f) = Option.map f <$> choose items := by
  unfold choose
  by_cases h : 0 < items.length
  · have h' : 0 < (items.map f).length := by rwa [List.length_map]
    rw [dif_pos h, dif_pos h', pick_map f items h' h, Functor.map_map, Functor.map_map]
    rfl
  · rw [dif_neg h, dif_neg (by rwa [List.length_map])]
    rfl

end Draw

/-- A change of the record that a try makes. -/
def Attempt.map (f : α → β) : Attempt α → Attempt β
  | .made a => .made (f a)
  | .skipped => .skipped
  | .ended => .ended

namespace Draw

theorem made_map {draw : Draw α} {draw' : Draw β} {f : α → β} (h : draw' = f <$> draw) :
    Attempt.made <$> draw' = Attempt.map f <$> Attempt.made <$> draw := by
  rw [h, Functor.map_map, Functor.map_map]
  rfl

/-- Tries that make changed records gather changed records. -/
theorem gather_map {attempt : Nat → Draw (Attempt α)} {attempt' : Nat → Draw (Attempt β)}
    {f : α → β} (h : ∀ index, attempt' index = Attempt.map f <$> attempt index)
    (tries index : Nat) :
    gather attempt' tries index = List.map f <$> gather attempt tries index := by
  induction tries generalizing index with
  | zero => rfl
  | succ tries ih =>
    unfold gather
    rw [h, bind_map_left, map_bind]
    refine bind_congr fun outcome => ?_
    cases outcome with
    | made a =>
      show (do let as ← gather attempt' tries (index + 1); pure (f a :: as)) = _
      rw [ih, bind_map_left, map_bind]
      rfl
    | skipped => exact ih index
    | ended => rfl

end Draw

/-! ## Dates -/

/-- **A renaming carries one present over into another**: a date that is drawn
in the second is the new date for the one that is drawn in the first. -/
def Renaming.Carries (ρ : Renaming Ref Date Ref' Date') (timeline : Timeline Date)
    (timeline' : Timeline Date') : Prop :=
  ∀ most ≤ earliestDays, timeline'.draw most = ρ.date <$> timeline.draw most

namespace Renaming

theorem carries_unchanged {ρ : Renaming Ref Date Ref' Date} (h : ρ.date = fun t => t)
    (timeline : Timeline Date) : ρ.Carries timeline timeline := by
  intro most _
  rw [h, id_map']

/-- It is enough that the calendar reaches far enough back in both presents,
and that each day of the one goes over into the same day of the other. -/
theorem carries_of_reach {ρ : Renaming Ref Date Ref' Date'} {timeline : Timeline Date}
    {timeline' : Timeline Date'} (h : earliestDays ≤ timeline.reach)
    (h' : earliestDays ≤ timeline'.reach)
    (hdate : ∀ days, timeline'.daysBefore days = ρ.date (timeline.daysBefore days)) :
    ρ.Carries timeline timeline' := by
  intro most hmost
  unfold Timeline.draw Draw.daysBack
  simp only [bind_assoc, map_bind]
  refine (Draw.wideUpTo_gives (E := fun _ => True) most).bind_congr fun days hdays => ?_
  rw [if_pos (hdays.trans (hmost.trans h)), if_pos (hdays.trans (hmost.trans h')), pure_bind,
    pure_bind, map_pure, hdate]

end Renaming

/-! ## Records -/

section

variable {ρ : Renaming Ref Date Ref' Date'} {timeline : Timeline Date}
  {timeline' : Timeline Date'}

theorem Instructor.draw_rename (template : InstructorTemplate) (id : Ref) :
    Instructor.draw template (ρ.own id) = Instructor.rename ρ <$> Instructor.draw template id := by
  unfold Instructor.draw
  simp only [map_bind, map_pure]
  rfl

theorem Student.draw_rename (h : ρ.Carries timeline timeline') (status : StudentStatus)
    (id : Ref) :
    Student.draw timeline' status (ρ.own id)
      = Student.rename ρ <$> Student.draw timeline status id := by
  unfold Student.draw
  simp only [map_bind, map_pure, h registrationDays (by decide), bind_map_left]
  rfl

theorem Course.draw_rename (h : ρ.Carries timeline timeline') (record : CourseRecord)
    (content : CourseContent) (category instructor id : Ref) :
    Course.draw timeline' record content (ρ.other category) (ρ.other instructor) (ρ.own id)
      = Course.rename ρ <$> Course.draw timeline record content category instructor id := by
  unfold Course.draw
  simp only [map_bind, map_pure, h creationDays (by decide), bind_map_left]
  rfl

theorem Enrollment.draw_rename (h : ρ.Carries timeline timeline') (status : EnrollmentStatus)
    (student course id : Ref) :
    Enrollment.draw timeline' status (ρ.other student) (ρ.other course) (ρ.own id)
      = Enrollment.rename ρ <$> Enrollment.draw timeline status student course id := by
  unfold Enrollment.draw
  simp only [map_bind, map_pure, h enrollmentDays (by decide), h accessDays (by decide),
    bind_map_left, pure_bind, apply_ite (Enrollment.rename ρ <$> ·)]
  rfl

theorem Review.draw_rename (h : ρ.Carries timeline timeline') (rating : UInt8)
    (course student id : Ref) :
    Review.draw timeline' rating (ρ.other course) (ρ.other student) (ρ.own id)
      = Review.rename ρ <$> Review.draw timeline rating course student id := by
  unfold Review.draw
  simp only [map_bind, map_pure, h writingDays (by decide), bind_map_left]
  rfl

theorem Payment.draw_rename (h : ρ.Carries timeline timeline') (price : Binary64)
    (status : PaymentStatus) (student course id : Ref) :
    Payment.draw timeline' price status (ρ.other student) (ρ.other course) (ρ.own id)
      = Payment.rename ρ <$> Payment.draw timeline price status student course id := by
  unfold Payment.draw
  simp only [map_bind, map_pure, h paymentDays (by decide), bind_map_left]
  rfl

/-! ## Collections -/

variable {ids : Nat → Ref} {ids' : Nat → Ref'}

theorem Category.gather_rename (hids : ∀ place, ids' place = ρ.own (ids place)) (count : Nat) :
    Category.gather ids' count = (Category.gather ids count).map (Category.rename ρ) := by
  refine List.ext_getElem? fun place => ?_
  unfold Category.gather
  rw [List.getElem?_map, List.getElem?_mapIdx, List.getElem?_mapIdx, Option.map_map, hids]
  rfl

theorem Instructor.gather_rename (hids : ∀ place, ids' place = ρ.own (ids place)) (count : Nat) :
    Instructor.gather ids' count
      = List.map (Instructor.rename ρ) <$> Instructor.gather ids count := by
  refine Draw.gather_map (fun place => ?_) count 0
  cases Catalog.instructors[place]? with
  | none => rfl
  | some template =>
    dsimp only
    rw [hids]
    exact Draw.made_map (draw_rename template (ids place))

theorem Student.gather_rename (h : ρ.Carries timeline timeline')
    (hids : ∀ place, ids' place = ρ.own (ids place)) (count : Nat) :
    Student.gather timeline' ids' count
      = List.map (Student.rename ρ) <$> Student.gather timeline ids count := by
  refine Draw.gather_map (fun place => ?_) count 0
  rw [map_bind, hids]
  exact bind_congr fun status => Draw.made_map (draw_rename h status (ids place))

/-- Instructors are chosen by their specialty. -/
theorem Course.drawInstructor_rename (instructors : List (Instructor Ref)) (category : String) :
    drawInstructor (instructors.map (Instructor.rename ρ)) category
      = Option.map (Instructor.rename ρ) <$> drawInstructor instructors category := by
  have hspecialists : (instructors.map (Instructor.rename ρ)).filter (·.specialty = category)
      = (instructors.filter (·.specialty = category)).map (Instructor.rename ρ) := by
    rw [List.filter_map]
    rfl
  unfold drawInstructor
  dsimp only
  rw [hspecialists, List.isEmpty_map, ← Draw.choose_map]
  split <;> rfl

theorem Course.templates_rename (categories : List (Category Ref)) :
    templates (categories.map (Category.rename ρ))
      = (templates categories).map fun (c, template) => (c.rename ρ, template) := by
  unfold templates
  rw [List.flatMap_map, List.map_flatMap]
  simp only [List.map_map]
  rfl

theorem Course.established_rename (h : ρ.Carries timeline timeline')
    (instructors : List (Instructor Ref)) (category : Category Ref) (template : CourseTemplate)
    (id : Ref) :
    established timeline' (instructors.map (Instructor.rename ρ.others))
        (category.rename ρ.others) template (ρ.own id)
      = Attempt.map (Course.rename ρ)
        <$> established timeline instructors category template id := by
  unfold established
  rw [show (category.rename ρ.others).name = category.name from rfl, drawInstructor_rename,
    bind_map_left, map_bind]
  refine bind_congr fun instructor => ?_
  cases instructor with
  | none => rfl
  | some instructor => exact Draw.made_map (draw_rename h _ _ category.id instructor.id id)

theorem Course.additional_rename (h : ρ.Carries timeline timeline')
    (categories : List (Category Ref)) (instructors : List (Instructor Ref)) (id : Ref) :
    additional timeline' (categories.map (Category.rename ρ.others))
        (instructors.map (Instructor.rename ρ.others)) (ρ.own id)
      = Attempt.map (Course.rename ρ) <$> additional timeline categories instructors id := by
  unfold additional
  rw [Draw.choose_map, bind_map_left, map_bind]
  refine bind_congr fun category => ?_
  cases category with
  | none => rfl
  | some category =>
    dsimp only [Option.map_some]
    rw [show (category.rename ρ.others).name = category.name from rfl, drawInstructor_rename,
      bind_map_left, map_bind]
    refine bind_congr fun instructor => ?_
    cases instructor with
    | none => rfl
    | some instructor =>
      dsimp only [Option.map_some]
      rw [map_bind]
      refine bind_congr fun template => ?_
      cases template with
      | none =>
        dsimp only
        rw [map_bind]
        exact bind_congr fun content =>
          Draw.made_map (draw_rename h _ _ category.id instructor.id id)
      | some template =>
        dsimp only
        rw [pure_bind, pure_bind]
        exact Draw.made_map (draw_rename h _ _ category.id instructor.id id)

theorem Course.gather_rename (h : ρ.Carries timeline timeline')
    (hids : ∀ place, ids' place = ρ.own (ids place)) (categories : List (Category Ref))
    (instructors : List (Instructor Ref)) (count : Nat) :
    Course.gather timeline' ids' (categories.map (Category.rename ρ.others))
        (instructors.map (Instructor.rename ρ.others)) count
      = List.map (Course.rename ρ) <$> Course.gather timeline ids categories instructors count := by
  unfold Course.gather
  rw [Draw.gather_map (f := Course.rename ρ) (fun place => ?_), bind_map_left, map_bind]
  · refine bind_congr fun first => ?_
    rw [List.length_map, Draw.gather_map (f := Course.rename ρ) (fun place => ?_), bind_map_left,
      map_bind]
    · refine bind_congr fun rest => ?_
      rw [map_pure, List.map_append]
    · rw [hids]
      exact additional_rename h categories instructors (ids place)
  · rw [templates_rename, List.getElem?_map, hids]
    cases (templates categories)[place]? with
    | none => rfl
    | some planned => exact established_rename h instructors planned.1 planned.2 (ids place)

/-- A student and a course are chosen by their positions. -/
theorem drawPair_map (students : List (Student Ref Date)) (courses : List (Course Ref Date))
    (f : Student Ref Date → Student Ref' Date') (g : Course Ref Date → Course Ref' Date') :
    drawPair (students.map f) (courses.map g)
      = Option.map (fun (s, c) => (f s, g c)) <$> drawPair students courses := by
  unfold drawPair
  rw [Draw.choose_map, bind_map_left, map_bind]
  refine bind_congr fun student => ?_
  cases student with
  | none => rfl
  | some student =>
    dsimp only [Option.map_some]
    rw [Draw.choose_map, bind_map_left, map_bind]
    refine bind_congr fun course => ?_
    cases course with
    | none => rfl
    | some course => rfl

section

variable (students : List (Student Ref Date)) (courses : List (Course Ref Date)) (count : Nat)

theorem Enrollment.gather_rename (h : ρ.Carries timeline timeline')
    (hids : ∀ place, ids' place = ρ.own (ids place)) :
    Enrollment.gather timeline' ids' (students.map (Student.rename ρ.others))
        (courses.map (Course.rename ρ.others)) count
      = List.map (Enrollment.rename ρ)
        <$> Enrollment.gather timeline ids students courses count := by
  refine Draw.gather_map (fun place => ?_) count 0
  rw [drawPair_map, bind_map_left, map_bind]
  refine bind_congr fun pair => ?_
  cases pair with
  | none => rfl
  | some pair =>
    dsimp only [Option.map_some]
    rw [map_bind, hids]
    exact bind_congr fun status =>
      Draw.made_map (draw_rename h status pair.1.id pair.2.id (ids place))

theorem Review.gather_rename (h : ρ.Carries timeline timeline')
    (hids : ∀ place, ids' place = ρ.own (ids place)) :
    Review.gather timeline' ids' (students.map (Student.rename ρ.others))
        (courses.map (Course.rename ρ.others)) count
      = List.map (Review.rename ρ) <$> Review.gather timeline ids students courses count := by
  refine Draw.gather_map (fun place => ?_) count 0
  rw [drawPair_map, bind_map_left, map_bind]
  refine bind_congr fun pair => ?_
  cases pair with
  | none => rfl
  | some pair =>
    dsimp only [Option.map_some]
    rw [map_bind, hids]
    exact bind_congr fun rating =>
      Draw.made_map (draw_rename h rating pair.2.id pair.1.id (ids place))

/-- Whether a payment is skipped depends on the price alone. -/
theorem Payment.gather_rename (h : ρ.Carries timeline timeline')
    (hids : ∀ place, ids' place = ρ.own (ids place)) :
    Payment.gather timeline' ids' (students.map (Student.rename ρ.others))
        (courses.map (Course.rename ρ.others)) count
      = List.map (Payment.rename ρ) <$> Payment.gather timeline ids students courses count := by
  refine Draw.gather_map (fun place => ?_) count 0
  rw [drawPair_map, bind_map_left, map_bind]
  refine bind_congr fun pair => ?_
  cases pair with
  | none => rfl
  | some pair =>
    dsimp only [Option.map_some]
    rw [map_bind, hids, show (Course.rename ρ.others pair.2).price = pair.2.price from rfl]
    refine bind_congr fun skip => ?_
    cases skip with
    | true => rfl
    | false =>
      rw [if_neg Bool.false_ne_true, if_neg Bool.false_ne_true, map_bind]
      exact bind_congr fun status =>
        Draw.made_map (draw_rename h _ status pair.1.id pair.2.id (ids place))

end

end

/-! ## The whole -/

namespace Dataset

section

variable {ρ : Renaming Ref Date Ref' Date'} {timeline : Timeline Date}
  {timeline' : Timeline Date'} {ids : Nat → Ref} {ids' : Nat → Ref'} {room : Nat}
  {counts : Counts}

theorem reserve_map {count : Nat} {draw : Draw α} {draw' : Draw β} {f : α → β}
    (h : draw' = f <$> draw) :
    (Draw.reserve room count >>= fun _ => draw')
      = f <$> (Draw.reserve room count >>= fun _ => draw) := by
  rw [h, map_bind]

/-- **Making the records of a collection does not look at names and dates**,
neither at those of its own records nor at those of the records it is made
from. -/
theorem drawRecords_rename (h : ρ.Carries timeline timeline')
    (hids : ∀ place, ids' place = ρ.own (ids place)) (d : Dataset Ref Date) (c : Collection) :
    drawRecords room counts timeline' ids' (d.rename ρ.others) c
      = List.map (Record.rename ρ c) <$> drawRecords room counts timeline ids d c := by
  cases c with
  | categories => exact congrArg pure (Category.gather_rename hids counts.categories)
  | instructors => exact Instructor.gather_rename hids counts.instructors
  | students => exact reserve_map (Student.gather_rename h hids counts.students)
  | courses =>
    exact reserve_map (Course.gather_rename h hids d.categories d.instructors counts.courses)
  | enrollments =>
    exact reserve_map (Enrollment.gather_rename d.students d.courses counts.enrollments h hids)
  | reviews =>
    exact reserve_map (Review.gather_rename d.students d.courses counts.reviews h hids)
  | payments =>
    exact reserve_map (Payment.gather_rename d.students d.courses counts.payments h hids)

@[simp] theorem rename_withRecords (ρ : Renaming Ref Date Ref' Date') (d : Dataset Ref Date)
    (c : Collection) (rs : List (Record Ref Date c)) :
    (d.withRecords c rs).rename ρ = (d.rename ρ).withRecords c (rs.map (Record.rename ρ c)) := by
  cases c <;> rfl

/-- **Making collections one after the other does not look at names and dates**,
where what records are known by and what they are referred to by are
renamed alike. -/
theorem drawOnto_rename (h : ρ.Carries timeline timeline') (hothers : ρ.others = ρ)
    (hids : ∀ place, ids' place = ρ.own (ids place)) (cs : List Collection) (place : Nat)
    (d : Dataset Ref Date) :
    drawOnto room counts timeline' ids' cs place (d.rename ρ)
      = Dataset.rename ρ <$> drawOnto room counts timeline ids cs place d := by
  induction cs generalizing place d with
  | nil => rfl
  | cons c cs ih =>
    have hrecords :
        drawRecords room counts timeline' (fun n => ids' (place + n)) (d.rename ρ.others) c
          = List.map (Record.rename ρ c)
            <$> drawRecords room counts timeline (fun n => ids (place + n)) d c :=
      drawRecords_rename h (fun n => hids (place + n)) d c
    unfold drawOnto
    rw [hothers] at hrecords
    rw [hrecords, bind_map_left, map_bind]
    refine bind_congr fun rs => ?_
    rw [List.length_map, ← rename_withRecords, ih]

/-- **Making a dataset does not look at names and dates.** -/
theorem draw_rename (h : ρ.Carries timeline timeline') (hothers : ρ.others = ρ)
    (hids : ∀ place, ids' place = ρ.own (ids place)) :
    draw room counts timeline' ids' = Dataset.rename ρ <$> draw room counts timeline ids := by
  rw [draw_eq_drawOnto, draw_eq_drawOnto]
  exact drawOnto_rename h hothers hids Collection.all 0 {}

end

end Dataset

end Academy
