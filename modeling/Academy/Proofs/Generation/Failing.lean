import Academy.Proofs.Generation.Dataset

/-!
# Why making records fails

What is made of sound records is sound, but records can be made of any
others as well: of courses that cost nothing, of categories that have no
templates. Nothing is said here of what comes of that. But it fails for
no other reasons than making sound records does: a date is drawn from
before the calendar, or there is no room.
-/

namespace Academy

variable {α β : Type} {Ref Date : Type} {E : DrawError → Prop}

namespace Draw

/-- **A draw that fails for some reasons only.** -/
def FailsOnly (draw : Draw α) (E : DrawError → Prop) : Prop :=
  draw.Gives E fun _ => True

theorem Gives.failsOnly {draw : Draw α} {P : α → Prop} (h : draw.Gives E P) : draw.FailsOnly E :=
  h.imp fun _ _ => trivial

theorem failsOnly_pure (a : α) : (pure a : Draw α).FailsOnly E :=
  gives_pure trivial

theorem FailsOnly.bind {draw : Draw α} {next : α → Draw β} (h : draw.FailsOnly E)
    (hnext : ∀ a, (next a).FailsOnly E) : (draw >>= next).FailsOnly E :=
  Gives.bind h fun a _ => hnext a

theorem FailsOnly.map {draw : Draw α} {f : α → β} (h : draw.FailsOnly E) :
    (f <$> draw).FailsOnly E :=
  Gives.map h fun _ _ => trivial

theorem span_failsOnly (span : Span) (zone : Nat) :
    (scaled word 32 span.size zone patience).FailsOnly E :=
  (scaled_gives word_gives (Nat.succ_pos _) patience).failsOnly

theorem within_failsOnly (span : Span) : (within span).FailsOnly E :=
  (span_failsOnly span _).bind fun _ => failsOnly_pure _

theorem short_failsOnly (span : Span) : (short span).FailsOnly E :=
  (span_failsOnly span _).bind fun _ => failsOnly_pure _

theorem fraction_failsOnly : fraction.FailsOnly E :=
  wide_gives.failsOnly.bind fun _ => failsOnly_pure _

theorem gather_failsOnly {attempt : Nat → Draw (Attempt α)}
    (h : ∀ index, (attempt index).FailsOnly E) (tries index : Nat) :
    (gather attempt tries index).FailsOnly E := by
  induction tries generalizing index with
  | zero => exact failsOnly_pure []
  | succ tries ih =>
    refine (h index).bind fun outcome => ?_
    cases outcome with
    | made a => exact (ih (index + 1)).bind fun as => failsOnly_pure (a :: as)
    | skipped => exact ih index
    | ended => exact failsOnly_pure []

end Draw

theorem UniformRange.drawRounded_failsOnly (range : UniformRange) (places : Int) :
    (range.drawRounded places).FailsOnly E :=
  (Draw.fraction_failsOnly.bind fun _ => Draw.failsOnly_pure _).bind fun _ => Draw.failsOnly_pure _

variable {timeline : Timeline Date}

/-! ## Courses -/

theorem Course.draw_failsOnly (hE : timeline.reach < creationDays → E .beforeCalendar)
    (record : CourseRecord) (content : CourseContent) (category instructor id : Ref) :
    (draw timeline record content category instructor id).FailsOnly E := by
  refine (timeline.draw_gives_any (Nat.le_refl _) hE).failsOnly.bind fun createdAt => ?_
  refine (record.ratings.drawRounded_failsOnly 2).bind fun rating => ?_
  refine (Draw.within_failsOnly record.enrolled).bind fun enrolledCount => ?_
  exact (Draw.pick_gives _ _).failsOnly.bind fun level => Draw.failsOnly_pure _

theorem Course.drawInstructor_failsOnly (instructors : List (Instructor Ref)) (category : String) :
    (drawInstructor instructors category).FailsOnly E :=
  (Draw.choose_gives _).failsOnly

theorem Course.gather_failsOnly (hE : timeline.reach < creationDays → E .beforeCalendar)
    (ids : Nat → Ref) (categories : List (Category Ref)) (instructors : List (Instructor Ref)) (count : Nat) :
    (gather timeline ids categories instructors count).FailsOnly E := by
  have hestablished (category : Category Ref) (template : CourseTemplate) (id : Ref) :
      (established timeline instructors category template id).FailsOnly E := by
    refine (drawInstructor_failsOnly instructors category.name).bind fun instructor => ?_
    cases instructor with
    | none => exact Draw.failsOnly_pure _
    | some instructor => exact (draw_failsOnly hE _ _ _ _ _).map
  have hadditional (id : Ref) :
      (additional timeline categories instructors id).FailsOnly E := by
    refine (Draw.choose_gives categories).failsOnly.bind fun category => ?_
    cases category with
    | none => exact Draw.failsOnly_pure _
    | some category =>
      refine (drawInstructor_failsOnly instructors category.name).bind fun instructor => ?_
      cases instructor with
      | none => exact Draw.failsOnly_pure _
      | some instructor =>
        refine (Draw.choose_gives _).failsOnly.bind fun template => ?_
        cases template with
        | none =>
          exact (CourseContent.filler_gives _).failsOnly.bind fun content =>
            (draw_failsOnly hE _ _ _ _ _).map
        | some template =>
          exact (Draw.failsOnly_pure template.advanced).bind fun content =>
            (draw_failsOnly hE _ _ _ _ _).map
  refine (Draw.gather_failsOnly (fun place => ?_) count 0).bind fun first =>
    (Draw.gather_failsOnly (fun place => hadditional (ids place)) _ _).bind fun rest =>
      Draw.failsOnly_pure _
  split
  · exact hestablished _ _ _
  · exact Draw.failsOnly_pure _

/-! ## Enrollments, reviews and payments -/

theorem drawPair_failsOnly (students : List (Student Ref Date)) (courses : List (Course Ref Date)) :
    (drawPair students courses).FailsOnly E := by
  refine (Draw.choose_gives students).failsOnly.bind fun student => ?_
  cases student with
  | none => exact Draw.failsOnly_pure _
  | some student =>
    refine (Draw.choose_gives courses).failsOnly.bind fun course => ?_
    cases course with
    | none => exact Draw.failsOnly_pure _
    | some course => exact Draw.failsOnly_pure _

theorem Enrollment.draw_failsOnly (hE : timeline.reach < enrollmentDays → E .beforeCalendar)
    (status : EnrollmentStatus) (student course id : Ref) :
    (draw timeline status student course id).FailsOnly E := by
  refine (timeline.draw_gives_any (Nat.le_refl _) hE).failsOnly.bind fun enrolledAt => ?_
  refine (Draw.short_failsOnly status.progress).bind fun progress => ?_
  have hgrade : (if status.hasFinalGrade then some <$> grades.drawRounded 1
      else pure none : Draw (Option Binary64)).FailsOnly E := by
    split
    · exact (grades.drawRounded_failsOnly 1).map
    · exact Draw.failsOnly_pure none
  have haccess : (if status.tracksLastAccess then some <$> timeline.draw accessDays
      else pure none : Draw (Option Date)).FailsOnly E := by
    split
    · exact (timeline.draw_gives_any (by decide) hE).failsOnly.map
    · exact Draw.failsOnly_pure none
  exact Draw.Gives.ite_bind hgrade fun grade _ => Draw.Gives.ite_bind haccess fun access _ =>
    Draw.failsOnly_pure _

theorem Review.draw_failsOnly (hE : timeline.reach < writingDays → E .beforeCalendar)
    (rating : UInt8) (course student id : Ref) :
    (draw timeline rating course student id).FailsOnly E := by
  refine (Draw.choose_gives _).failsOnly.bind fun comment => ?_
  refine (timeline.draw_gives_any (Nat.le_refl _) hE).failsOnly.bind fun createdAt => ?_
  exact (Draw.within_failsOnly (helpful rating)).bind fun helpfulCount => Draw.failsOnly_pure _

theorem Payment.drawSkip_failsOnly (price : Binary64) : (drawSkip price).FailsOnly E := by
  unfold drawSkip
  split
  · exact (Draw.chance_gives _).failsOnly
  · exact Draw.failsOnly_pure _

theorem Payment.draw_failsOnly (hE : timeline.reach < paymentDays → E .beforeCalendar)
    (price : Binary64) (status : PaymentStatus) (student course id : Ref) :
    (draw timeline price status student course id).FailsOnly E := by
  have hamount : (drawAmount price).FailsOnly E := by
    refine (Draw.chance_gives _).failsOnly.bind fun discount => ?_
    split
    · exact (Draw.pick_gives _ _).failsOnly.bind fun factor => Draw.failsOnly_pure _
    · exact Draw.failsOnly_pure _
  refine hamount.bind fun amount => ?_
  refine (timeline.draw_gives_any (Nat.le_refl _) hE).failsOnly.bind fun paidAt => ?_
  refine (Draw.pick_gives _ _).failsOnly.bind fun method => ?_
  exact (Draw.within_gives (by decide)).failsOnly.bind fun number => Draw.failsOnly_pure _

section

variable (ids : Nat → Ref) (students : List (Student Ref Date)) (courses : List (Course Ref Date))
  (count : Nat)

theorem Enrollment.gather_failsOnly (hE : timeline.reach < enrollmentDays → E .beforeCalendar) :
    (gather timeline ids students courses count).FailsOnly E := by
  refine Draw.gather_failsOnly (fun place => ?_) count 0
  refine (drawPair_failsOnly students courses).bind fun pair => ?_
  cases pair with
  | none => exact Draw.failsOnly_pure _
  | some pair =>
    exact EnrollmentStatus.choice.draw_gives.failsOnly.bind fun status =>
      (draw_failsOnly hE _ _ _ _).map

theorem Review.gather_failsOnly (hE : timeline.reach < writingDays → E .beforeCalendar) :
    (gather timeline ids students courses count).FailsOnly E := by
  refine Draw.gather_failsOnly (fun place => ?_) count 0
  refine (drawPair_failsOnly students courses).bind fun pair => ?_
  cases pair with
  | none => exact Draw.failsOnly_pure _
  | some pair =>
    exact ratingChoice.draw_gives.failsOnly.bind fun rating => (draw_failsOnly hE _ _ _ _).map

theorem Payment.gather_failsOnly (hE : timeline.reach < paymentDays → E .beforeCalendar) :
    (gather timeline ids students courses count).FailsOnly E := by
  refine Draw.gather_failsOnly (fun place => ?_) count 0
  refine (drawPair_failsOnly students courses).bind fun pair => ?_
  cases pair with
  | none => exact Draw.failsOnly_pure _
  | some pair =>
    refine (drawSkip_failsOnly pair.2.price).bind fun skip => ?_
    split
    · exact Draw.failsOnly_pure _
    · exact PaymentStatus.choice.draw_gives.failsOnly.bind fun status =>
        (draw_failsOnly hE _ _ _ _ _).map

end

/-! ## Collections -/

/-- **Making the records of a collection fails for two reasons**, whatever they
are made from. -/
theorem Dataset.drawRecords_failsOnly {room : Nat} {counts : Counts} {ids : Nat → Ref}
    {d : Dataset Ref Date} (c : Collection)
    (hE : timeline.reach < c.daysBack → E .beforeCalendar)
    (hroom : c.TakesRoom → room < counts.get c → E .memory) :
    (drawRecords room counts timeline ids d c).FailsOnly E := by
  have hreserve (hc : c.TakesRoom) : (Draw.reserve room (counts.get c)).FailsOnly E :=
    Draw.reserve_gives (hroom hc)
  cases c with
  | categories => exact Draw.failsOnly_pure _
  | instructors => exact Instructor.gather_gives.failsOnly
  | students => exact (hreserve trivial).bind fun _ => (Student.gather_gives hE).failsOnly
  | courses => exact (hreserve trivial).bind fun _ => Course.gather_failsOnly hE _ _ _ _
  | enrollments => exact (hreserve trivial).bind fun _ => Enrollment.gather_failsOnly _ _ _ _ hE
  | reviews => exact (hreserve trivial).bind fun _ => Review.gather_failsOnly _ _ _ _ hE
  | payments => exact (hreserve trivial).bind fun _ => Payment.gather_failsOnly _ _ _ _ hE

/-- **What keeps the records of a collection from being made**: there is no room for
as many, or the calendar does not reach back as far as their dates do, which matters
only if there is something to make records of. -/
def Collection.Hinders (room : Nat) (counts : Counts) (timeline : Timeline Date)
    (something : Prop) (c : Collection) : DrawError → Prop
  | .beforeCalendar => timeline.reach < c.daysBack ∧ something
  | .memory => room < counts.get c

end Academy
