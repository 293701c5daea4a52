import Academy.Proofs.Generation.Records

/-!
# What students do is sound

Enrollments, reviews and payments belong to a student and a course of those
that there are. The rest of an enrollment is decided by its status and the
rest of a review by its rating, and a sound record is one that has what its
own status or rating decides.

A payment is the price of its course or what a discount leaves of it. As
no course that is made costs nothing, no payment is left out, and there
are as many payments as there are to be.
-/

namespace Academy

open Binary64

variable {Ref Date : Type} {E : DrawError → Prop}

/-- The student and the course of a record are among those that there are. -/
def Participates (students : List (Student Ref Date)) (courses : List (Course Ref Date))
    (student course : Ref) : Prop :=
  (∃ s ∈ students, s.id = student) ∧ ∃ c ∈ courses, c.id = course

theorem drawPair_gives {students : List (Student Ref Date)} {courses : List (Course Ref Date)}
    (hstudents : students ≠ []) (hcourses : courses ≠ []) :
    (drawPair students courses).Gives E (fun o => ∃ student ∈ students, ∃ course ∈ courses,
      o = some (student, course)) := by
  refine (Draw.choose_gives students).bind fun o ho => ?_
  rcases o with _ | student
  · exact absurd ho hstudents
  · refine (Draw.choose_gives courses).bind fun o ho' => ?_
    rcases o with _ | course
    · exact absurd ho' hcourses
    · exact Draw.gives_pure ⟨student, ho, course, ho', rfl⟩

/-- There is no pair where one of the two is missing. -/
theorem drawPair_gives_none {students : List (Student Ref Date)}
    {courses : List (Course Ref Date)} (h : students = [] ∨ courses = []) :
    (drawPair students courses).Gives E (· = none) := by
  refine (Draw.choose_gives students).bind fun o ho => ?_
  rcases o with _ | student
  · exact Draw.gives_pure rfl
  · obtain rfl : courses = [] := h.resolve_left (List.ne_nil_of_mem ho)
    exact (Draw.gives_pure (P := (· = none)) rfl).bind fun o ho => by
      subst ho
      exact Draw.gives_pure rfl

/-- **Records of students and courses**: as long as there are both, each try makes
one. -/
theorem gatherPairs_gives {α : Type} {students : List (Student Ref Date)}
    {courses : List (Course Ref Date)}
    {next : Student Ref Date → Course Ref Date → Nat → Draw (Attempt α)} {P : Nat → α → Prop}
    {count : Nat} (hsome : 0 < count → students ≠ [] ∧ courses ≠ [])
    (hnext : ∀ student ∈ students, ∀ course ∈ courses, ∀ n,
      (next student course n).Gives E (fun outcome => ∃ a, outcome = .made a ∧ P n a)) :
    (Draw.gather (fun place => do
      match ← drawPair students courses with
      | none => pure .ended
      | some (student, course) => next student course place) count 0).Gives E
        (fun as => as.length = count ∧ PlacedFrom 0 P as) := by
  refine Draw.gather_gives_all fun n _ hn => ?_
  obtain ⟨hstudents, hcourses⟩ := hsome (by omega)
  refine (drawPair_gives hstudents hcourses).bind fun o ho => ?_
  obtain ⟨student, hstudent, course, hcourse, rfl⟩ := ho
  exact hnext student hstudent course hcourse n

/-! ## Enrollments -/

/-- **An enrollment as it is made**: what else there is follows its status. -/
structure Enrollment.Sound (students : List (Student Ref Date))
    (courses : List (Course Ref Date)) (e : Enrollment Ref Date) : Prop where
  /-- Its student and its course are there. -/
  participates : Participates students courses e.student e.course
  /-- So much of the course is done. -/
  progress : e.status.progress.low ≤ e.progress.toNat ∧
    e.progress.toNat ≤ e.status.progress.high
  /-- There is a grade if the status has one. -/
  hasGrade : e.finalGrade.isSome = e.status.hasFinalGrade
  /-- A grade is between 65 and 100. -/
  grade : ∀ grade, e.finalGrade = some grade → HasPlaces 1 650 1000 grade
  /-- The last access is there if the status has one. -/
  lastAccessed : e.lastAccessed.isSome = e.status.tracksLastAccess

namespace Enrollment

theorem grades_covers : grades.Covers 1 650 1000 := by decide +kernel

/-- A grade lies between the lowest and the best one. -/
theorem Sound.grade_le {students : List (Student Ref Date)} {courses : List (Course Ref Date)}
    {e : Enrollment Ref Date} (h : e.Sound students courses) {grade : Binary64}
    (hgrade : e.finalGrade = some grade) :
    lowestGrade.le grade = true ∧ grade.le bestGrade = true := by
  obtain ⟨hlow, hhigh⟩ := ((h.grade grade hgrade).between placesFactor_one (by decide)
    (by decide) (by decide) (by decide +kernel)).le
  exact ⟨(show round false (650 * one) 10 = lowestGrade by decide +kernel) ▸ hlow,
    (show round false (1000 * one) 10 = bestGrade by decide +kernel) ▸ hhigh⟩

/-- **An enrollment of a status** has what the status decides. -/
theorem draw_gives {timeline : Timeline Date} {students : List (Student Ref Date)}
    {courses : List (Course Ref Date)} {student course id : Ref} (status : EnrollmentStatus)
    (hE : timeline.reach < enrollmentDays → E .beforeCalendar)
    (hparticipates : Participates students courses student course) :
    (draw timeline status student course id).Gives E
      (fun e => e.id = id ∧ e.Sound students courses) := by
  have hspan : status.progress.low ≤ status.progress.high ∧ status.progress.high < 256 := by
    cases status <;> decide
  refine (timeline.draw_gives_any (Nat.le_refl _) hE).bind fun enrolledAt _ => ?_
  refine (Draw.short_gives hspan.1).bind fun progress hprogress => ?_
  have hgrade : (if status.hasFinalGrade then some <$> grades.drawRounded 1
      else pure none : Draw (Option Binary64)).Gives E (fun o =>
        o.isSome = status.hasFinalGrade ∧ ∀ grade, o = some grade → HasPlaces 1 650 1000 grade) := by
    split
    · next h =>
      refine (UniformRange.drawRounded_gives grades_covers).map fun grade hgrade => ⟨h.symm, ?_⟩
      rintro _ ⟨⟩
      exact hgrade
    · next h => exact Draw.gives_pure ⟨(Bool.eq_false_iff.mpr h).symm, fun _ => nofun⟩
  have haccess : (if status.tracksLastAccess then some <$> timeline.draw accessDays
      else pure none : Draw (Option Date)).Gives E (fun o => o.isSome = status.tracksLastAccess) := by
    split
    · next h => exact (timeline.draw_gives_any (by decide) hE).map fun _ _ => h.symm
    · next h => exact Draw.gives_pure (Bool.eq_false_iff.mpr h).symm
  refine hgrade.ite_bind fun grade hgrade => haccess.ite_bind fun access haccess => ?_
  refine Draw.gives_pure ⟨rfl, ?_⟩
  have hsize : (UInt8.ofNat progress).toNat = progress :=
    UInt8.toNat_ofNat_of_lt' (hprogress.2.trans_lt hspan.2)
  exact ⟨hparticipates, by rw [hsize]; exact hprogress, hgrade.1, hgrade.2, haccess⟩

end Enrollment

/-! ## Reviews -/

/-- **A review as it is made**: the comment is one of its rating's. -/
structure Review.Sound (students : List (Student Ref Date)) (courses : List (Course Ref Date))
    (r : Review Ref Date) : Prop where
  /-- Its student and its course are there. -/
  participates : Participates students courses r.student r.course
  /-- The rating is one to five. -/
  rating : 1 ≤ r.rating.toNat ∧ r.rating.toNat ≤ 5
  /-- The comment is one of the rating's. -/
  comment : r.comment ∈ Catalog.comments r.rating

namespace Review

theorem ratingChoice_outcomes : ∀ rating ∈ ratingChoice.outcomes,
    (1 ≤ rating.toNat ∧ rating.toNat ≤ 5) ∧ Catalog.comments rating ≠ [] := by
  decide +kernel

theorem helpful_le (rating : UInt8) :
    (helpful rating).low ≤ (helpful rating).high ∧ (helpful rating).high < UInt32.size := by
  unfold helpful
  split
  · decide
  · decide

/-- **A review of a rating** for which there are comments: it is as helpful as the
rating allows. -/
theorem draw_gives {timeline : Timeline Date} {students : List (Student Ref Date)}
    {courses : List (Course Ref Date)} {student course id : Ref} {rating : UInt8}
    (hE : timeline.reach < writingDays → E .beforeCalendar)
    (hparticipates : Participates students courses student course)
    (hrating : 1 ≤ rating.toNat ∧ rating.toNat ≤ 5) (hcomments : Catalog.comments rating ≠ []) :
    (draw timeline rating course student id).Gives E
      (fun r => r.id = id ∧ r.Sound students courses ∧
        (helpful r.rating).low ≤ r.helpfulCount.toNat ∧
          r.helpfulCount.toNat ≤ (helpful r.rating).high) := by
  refine (Draw.choose_gives _).bind fun comment hcomment => ?_
  refine (timeline.draw_gives_any (Nat.le_refl _) hE).bind fun createdAt _ => ?_
  refine (Draw.within_gives (helpful_le rating).1).bind fun count hcount =>
    Draw.gives_pure ⟨rfl, ⟨hparticipates, hrating, ?_⟩, ?_⟩
  · rcases comment with _ | comment
    · exact absurd hcomment hcomments
    · exact hcomment
  · have hsize : (UInt32.ofNat count).toNat = count :=
      UInt32.toNat_ofNat_of_lt' (hcount.2.trans_lt (helpful_le rating).2)
    rw [hsize]
    exact hcount

end Review

/-! ## Payments -/

/-- **A payment as it is made.** -/
structure Payment.Sound (students : List (Student Ref Date)) (courses : List (Course Ref Date))
    (p : Payment Ref Date) : Prop where
  /-- Its student and its course are there. -/
  participates : Participates students courses p.student p.course
  /-- How much is paid. -/
  amount : HasPlaces 2 0 Course.greatestPrice p.amount
  /-- It is paid in dollars. -/
  currency : p.currency = Catalog.currency

namespace Payment

/-- **What is paid of a price**: all of it, or what one of the discounts leaves. -/
theorem drawAmount_gives (price : Binary64) :
    (drawAmount price).Gives E (fun amount => amount = price ∨
      ∃ factor ∈ Catalog.discountFactors, amount = (price * factor).roundTo 2) := by
  refine (Draw.chance_gives _).bind fun discount _ => ?_
  split
  · exact (Draw.pick_gives _ _).bind fun factor hfactor =>
      Draw.gives_pure (.inr ⟨factor, hfactor, rfl⟩)
  · exact Draw.gives_pure (.inl rfl)

/-- What is paid is never more than the greatest price. -/
theorem amount_hasPlaces {price amount : Binary64} (h : HasPlaces 2 1 Course.greatestPrice price)
    (hamount : amount = price ∨
      ∃ factor ∈ Catalog.discountFactors, amount = (price * factor).roundTo 2) :
    HasPlaces 2 0 Course.greatestPrice amount := by
  have hfactors : ∀ c ∈ Catalog.discountFactors, c.Unsigned ∧
      (round false (Course.greatestPrice * one) 100 * c).isFinite = true ∧
      (round false (Course.greatestPrice * one) 100 * c * placesFactor 2).isFinite = true ∧
      (round false (Course.greatestPrice * one) 100 * c * placesFactor 2).wholes
        ≤ Course.greatestPrice := by
    decide +kernel
  rcases hamount with rfl | ⟨c, hc, rfl⟩
  · exact h.mono (Nat.zero_le _) (Nat.le_refl _)
  · obtain ⟨hunsigned, hpart, hscaled, hmost⟩ := hfactors c hc
    exact h.part placesFactor_two (by decide) (by decide) (by decide) hunsigned
      (by decide +kernel) (by decide +kernel) hpart hscaled hmost

/-- **A payment**, for whatever it is made. -/
theorem draw_gives {timeline : Timeline Date} {price : Binary64} {student course id : Ref}
    (status : PaymentStatus) (hE : timeline.reach < paymentDays → E .beforeCalendar) :
    (draw timeline price status student course id).Gives E
      (fun p => p.id = id ∧ p.student = student ∧ p.course = course ∧
        p.currency = Catalog.currency ∧ (p.amount = price ∨
          ∃ factor ∈ Catalog.discountFactors, p.amount = (price * factor).roundTo 2)) := by
  refine (drawAmount_gives price).bind fun amount hamount => ?_
  refine (timeline.draw_gives_any (Nat.le_refl _) hE).bind fun paidAt _ => ?_
  refine (Draw.pick_gives _ _).bind fun method _ => ?_
  refine (Draw.within_gives (by decide)).bind fun number _ => Draw.gives_pure ?_
  exact ⟨rfl, rfl, rfl, rfl, hamount⟩

/-- **Nobody is let off** a course that does not cost zero. -/
theorem drawSkip_gives {price : Binary64} (h : price.equal 0 = false) :
    (drawSkip price).Gives E (· = false) := by
  unfold drawSkip
  rw [h]
  exact Draw.gives_pure rfl

/-- A price of which some part is left is not zero. -/
theorem equal_zero_of_hasPlaces {price : Binary64}
    (h : HasPlaces 2 1 Course.greatestPrice price) : price.equal 0 = false := by
  obtain ⟨hunsigned, hpos⟩ := h.unsigned_pos placesFactor_two (by decide) (by decide) (by decide)
    (by decide +kernel) (by decide +kernel)
  unfold equal
  rw [hunsigned.le_zero hpos, Bool.false_and]

end Payment

end Academy
