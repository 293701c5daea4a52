import Academy.Proofs.Generation.Failing

/-!
# What students do, with any courses

Enrollments, reviews and payments are made for any students and any
courses, and nothing is asked of these: what they are known by can occur
again and again, and a course can cost anything, nothing included. That
is what sets this apart from the records of a dataset that is made as a
whole, whose courses all have a price.

Who takes part is always a student and a course of those that there are.
The rest of an enrollment follows its status, the rest of a review its
rating, and what is paid is the price of a course or what a discount
leaves of it. The numbers are kept exactly, but for payments: a try is
skipped only where the price is zero, so they are kept there as well if
no course costs nothing.
-/

namespace Academy

variable {Ref Date : Type} {E : DrawError → Prop}

/-! ## Rules -/

/-- **An enrollment follows its status**: the status decides how much is done,
whether there is a grade, and whether the last access is known. -/
def Enrollment.FollowsStatus (e : Enrollment Ref Date) : Prop :=
  match e.status with
  | .inProgress => (10 ≤ e.progress.toNat ∧ e.progress.toNat ≤ 95) ∧
    e.finalGrade = none ∧ ∃ date, e.lastAccessed = some date
  | .completed => e.progress.toNat = 100 ∧
    (∃ grade, e.finalGrade = some grade ∧ (65 : Binary64).le grade ∧ grade.le 100) ∧
    e.lastAccessed = none
  | .dropped => (5 ≤ e.progress.toNat ∧ e.progress.toNat ≤ 40) ∧
    e.finalGrade = none ∧ e.lastAccessed = none

/-- **A review follows its rating**: the rating decides what is said, and how many
can find it helpful. -/
structure Review.FollowsRating (r : Review Ref Date) : Prop where
  /-- There are one to five stars. -/
  rating : 1 ≤ r.rating.toNat ∧ r.rating.toNat ≤ 5
  /-- The comment is one of the rating's. -/
  comment : r.comment ∈ Catalog.comments r.rating
  /-- Good reviews can be helpful to more. -/
  helpful : (helpful r.rating).low ≤ r.helpfulCount.toNat ∧
    r.helpfulCount.toNat ≤ (helpful r.rating).high

/-- **A payment for a course** by a student: of the whole price, or of what a
discount leaves, rounded to two places. -/
structure Payment.IsFor (student : Student Ref Date) (course : Course Ref Date)
    (p : Payment Ref Date) : Prop where
  /-- It is the student who pays. -/
  payer : p.student = student.id
  /-- It is the course that is paid for. -/
  purchase : p.course = course.id
  /-- How much is paid. -/
  amount : p.amount = course.price ∨
    ∃ factor ∈ Catalog.discountFactors, p.amount = (course.price * factor).roundTo 2

/-- **Records of students and courses**: as many as there are to be, if there are
both, and none otherwise. -/
structure PairedUp {α : Type} (students : List (Student Ref Date))
    (courses : List (Course Ref Date)) (count : Nat) (rules : α → Prop) (as : List α) : Prop where
  /-- There are none without students or courses. -/
  none : students = [] ∨ courses = [] → as = []
  /-- Otherwise there are as many as there are to be. -/
  length : students ≠ [] → courses ≠ [] → as.length = count
  /-- The rules are kept by each of them. -/
  each : ∀ a ∈ as, rules a

/-- **The payments of students for courses**, some of which can be missing where a
course costs nothing. -/
structure PaidUp (students : List (Student Ref Date)) (courses : List (Course Ref Date))
    (count : Nat) (payments : List (Payment Ref Date)) : Prop where
  /-- There are none without students or courses. -/
  none : students = [] ∨ courses = [] → payments = []
  /-- There are no more than there are to be. -/
  length_le : payments.length ≤ count
  /-- There are as many if no course costs zero. -/
  length : students ≠ [] → courses ≠ [] → (∀ course ∈ courses, course.price.equal 0 = false) →
    payments.length = count
  /-- Each is for a course. -/
  each : ∀ p ∈ payments, ∃ student ∈ students, ∃ course ∈ courses,
    Payment.IsFor student course p

/-! ## Making them -/

theorem Enrollment.Sound.followsStatus {students : List (Student Ref Date)}
    {courses : List (Course Ref Date)} {e : Enrollment Ref Date} (h : e.Sound students courses) :
    e.FollowsStatus := by
  have hprogress := h.progress
  have hgrade := h.hasGrade
  have haccess := h.lastAccessed
  unfold FollowsStatus
  cases hstatus : e.status with
  | inProgress =>
    rw [hstatus] at hprogress hgrade haccess
    exact ⟨hprogress, Option.isNone_iff_eq_none.mp (Option.isSome_eq_false_iff.mp hgrade),
      Option.isSome_iff_exists.mp haccess⟩
  | completed =>
    rw [hstatus] at hprogress hgrade haccess
    obtain ⟨grade, hsome⟩ := Option.isSome_iff_exists.mp hgrade
    exact ⟨Nat.le_antisymm hprogress.2 hprogress.1, ⟨grade, hsome, h.grade_le hsome⟩,
      Option.isNone_iff_eq_none.mp (Option.isSome_eq_false_iff.mp haccess)⟩
  | dropped =>
    rw [hstatus] at hprogress hgrade haccess
    exact ⟨hprogress, Option.isNone_iff_eq_none.mp (Option.isSome_eq_false_iff.mp hgrade),
      Option.isNone_iff_eq_none.mp (Option.isSome_eq_false_iff.mp haccess)⟩

section

variable {timeline : Timeline Date} {ids : Nat → Ref} {count : Nat}
  {students : List (Student Ref Date)} {courses : List (Course Ref Date)}

theorem PairedUp.of_gives {α : Type} {draw : Draw (List α)} {rules : α → Prop}
    (hnil : students = [] ∨ courses = [] → draw.Gives E (· = []))
    (hall : students ≠ [] → courses ≠ [] →
      draw.Gives E (fun as => as.length = count ∧ ∀ a ∈ as, rules a)) :
    draw.Gives E (PairedUp students courses count rules) := by
  by_cases hnone : students = [] ∨ courses = []
  · refine (hnil hnone).imp fun as has => ?_
    subst has
    exact ⟨fun _ => rfl, fun hstudents hcourses =>
      absurd hnone (not_or.mpr ⟨hstudents, hcourses⟩), nofun⟩
  · obtain ⟨hstudents, hcourses⟩ := not_or.mp hnone
    exact (hall hstudents hcourses).imp fun as has =>
      ⟨fun h => absurd h hnone, fun _ _ => has.1, has.2⟩

theorem Enrollment.gather_pairedUp
    (hE : timeline.reach < enrollmentDays ∧ students ≠ [] ∧ courses ≠ [] → E .beforeCalendar) :
    (gather timeline ids students courses count).Gives E (PairedUp students courses count
      fun e => Participates students courses e.student e.course ∧ e.FollowsStatus) := by
  refine PairedUp.of_gives gather_gives_nil fun hstudents hcourses => ?_
  exact (gather_gives (fun h => hE ⟨h, hstudents, hcourses⟩) fun _ => ⟨hstudents, hcourses⟩).imp
    fun _ h => ⟨h.1, h.2.forall_mem fun _ _ he => ⟨he.2.participates, he.2.followsStatus⟩⟩

theorem Review.gather_pairedUp
    (hE : timeline.reach < writingDays ∧ students ≠ [] ∧ courses ≠ [] → E .beforeCalendar) :
    (gather timeline ids students courses count).Gives E (PairedUp students courses count
      fun r => Participates students courses r.student r.course ∧ r.FollowsRating) := by
  refine PairedUp.of_gives gather_gives_nil fun hstudents hcourses => ?_
  have hgather : (gather timeline ids students courses count).Gives E
      (fun reviews => reviews.length = count ∧ PlacedFrom 0 (fun _ r =>
        Participates students courses r.student r.course ∧ r.FollowsRating) reviews) := by
    refine gatherPairs_gives (fun _ => ⟨hstudents, hcourses⟩)
      fun student hstudent course hcourse n => ?_
    refine ratingChoice.draw_gives.bind fun rating hrating => ?_
    obtain ⟨hspan, hcomments⟩ := ratingChoice_outcomes rating hrating
    exact ((draw_gives (fun h => hE ⟨h, hstudents, hcourses⟩)
      ⟨⟨student, hstudent, rfl⟩, course, hcourse, rfl⟩ hspan hcomments).imp
        fun r hr => ⟨hr.2.1.participates, hr.2.1.rating, hr.2.1.comment, hr.2.2⟩).made
  exact hgather.imp fun _ h => ⟨h.1, h.2.forall_mem fun _ _ hr => hr⟩

/-- **What comes of a try at a payment**, unless it is skipped. -/
theorem Payment.draw_isFor (student : Student Ref Date) (course : Course Ref Date) (id : Ref)
    (hE : timeline.reach < paymentDays → E .beforeCalendar) :
    (PaymentStatus.choice.draw >>= fun status =>
      Attempt.made <$> draw timeline course.price status student.id course.id id).Gives E
        (fun outcome => ∃ p, outcome = .made p ∧ IsFor student course p) :=
  PaymentStatus.choice.draw_gives.bind fun status _ =>
    ((draw_gives status hE).imp fun _ ⟨_, hstudent, hcourse, _, hamount⟩ =>
      ⟨hstudent, hcourse, hamount⟩).made

theorem Payment.gather_paidUp
    (hE : timeline.reach < paymentDays ∧ students ≠ [] ∧ courses ≠ [] → E .beforeCalendar) :
    (gather timeline ids students courses count).Gives E (PaidUp students courses count) := by
  by_cases hnone : students = [] ∨ courses = []
  · refine (gather_gives_nil hnone).imp fun payments hpayments => ?_
    subst hpayments
    exact ⟨fun _ => rfl, Nat.zero_le _, fun hstudents hcourses =>
      absurd hnone (not_or.mpr ⟨hstudents, hcourses⟩), nofun⟩
  obtain ⟨hstudents, hcourses⟩ := not_or.mp hnone
  replace hE : timeline.reach < paymentDays → E .beforeCalendar :=
    fun h => hE ⟨h, hstudents, hcourses⟩
  have hsome : (gather timeline ids students courses count).Gives E (fun payments =>
      payments.length ≤ count ∧ ∀ p ∈ payments, ∃ student ∈ students, ∃ course ∈ courses,
        IsFor student course p) := by
    refine Draw.gather_gives_some (fun place => ?_) count 0
    refine (drawPair_gives hstudents hcourses).bind fun o ho => ?_
    obtain ⟨student, hstudent, course, hcourse, rfl⟩ := ho
    refine Draw.Gives.bind (drawSkip_failsOnly course.price) fun skip _ => ?_
    cases skip with
    | true => exact Draw.gives_pure nofun
    | false =>
      refine (draw_isFor student course (ids place) hE).imp ?_
      rintro _ ⟨p, rfl, hp⟩ _ ⟨⟩
      exact ⟨student, hstudent, course, hcourse, hp⟩
  by_cases hprices : ∀ course ∈ courses, course.price.equal 0 = false
  · have hall : (gather timeline ids students courses count).Gives E (fun payments =>
        payments.length = count ∧ PlacedFrom 0 (fun _ _ => True) payments) := by
      refine gatherPairs_gives (fun _ => ⟨hstudents, hcourses⟩)
        fun student _ course hcourse n => ?_
      refine (drawSkip_gives (hprices course hcourse)).bind fun skip hskip => ?_
      subst hskip
      exact (draw_isFor student course (ids n) hE).imp fun _ ⟨p, hp, _⟩ => ⟨p, hp, trivial⟩
    exact (hsome.and hall).imp fun payments h =>
      ⟨fun h' => absurd h' hnone, h.1.1, fun _ _ _ => h.2.1, h.1.2⟩
  · exact hsome.imp fun payments h =>
      ⟨fun h' => absurd h' hnone, h.1, fun _ _ h' => absurd h' hprices, h.2⟩

end

/-- **What students do, with any students and any courses**, whatever these are known
by and whatever the courses cost, and whatever words are read. There are as many
enrollments and as many reviews as there are to be, or none where there are no
students or no courses. There are never more payments than there are to be, and no
fewer if there are students and courses and none of the courses costs zero. Each
record belongs to a student and a course that are there; enrollments follow their
status, reviews their rating, and each payment is of the price of its course or of
what a discount leaves of it. Records are missing altogether only where there is
no room for them, or where the calendar does not reach back as far as their dates
do. -/
theorem Dataset.drawRecords_paired (d : Dataset Ref Date) (counts : Counts)
    (timeline : Timeline Date) (ids : Nat → Ref) (room : Nat) (stream : WordStream) :
    let hinders (c : Collection) : DrawError → Prop :=
      c.Hinders room counts timeline (d.students ≠ [] ∧ d.courses ≠ [])
    ((∃ enrollments : List (Enrollment Ref Date),
      ((drawRecords room counts timeline ids d .enrollments).readFrom stream).1
          = .ok enrollments ∧
        PairedUp d.students d.courses counts.enrollments (fun e =>
          Participates d.students d.courses e.student e.course ∧ e.FollowsStatus) enrollments) ∨
      ∃ e, ((drawRecords room counts timeline ids d .enrollments).readFrom stream).1 = .error e ∧
        hinders .enrollments e) ∧
    ((∃ reviews : List (Review Ref Date),
      ((drawRecords room counts timeline ids d .reviews).readFrom stream).1 = .ok reviews ∧
        PairedUp d.students d.courses counts.reviews (fun r =>
          Participates d.students d.courses r.student r.course ∧ r.FollowsRating) reviews) ∨
      ∃ e, ((drawRecords room counts timeline ids d .reviews).readFrom stream).1 = .error e ∧
        hinders .reviews e) ∧
    ((∃ payments : List (Payment Ref Date),
      ((drawRecords room counts timeline ids d .payments).readFrom stream).1 = .ok payments ∧
        PaidUp d.students d.courses counts.payments payments) ∨
      ∃ e, ((drawRecords room counts timeline ids d .payments).readFrom stream).1 = .error e ∧
        hinders .payments e) := by
  intro hinders
  have hreserve (c : Collection) :
      (Draw.reserve room (counts.get c)).Gives (hinders c) (fun _ => True) :=
    Draw.reserve_gives id
  have henrollments : (drawRecords room counts timeline ids d .enrollments).Gives
      (hinders .enrollments) (PairedUp d.students d.courses counts.enrollments _) :=
    (hreserve .enrollments).bind fun _ _ => Enrollment.gather_pairedUp id
  have hreviews : (drawRecords room counts timeline ids d .reviews).Gives
      (hinders .reviews) (PairedUp d.students d.courses counts.reviews _) :=
    (hreserve .reviews).bind fun _ _ => Review.gather_pairedUp id
  have hpayments : (drawRecords room counts timeline ids d .payments).Gives
      (hinders .payments) (PaidUp d.students d.courses counts.payments) :=
    (hreserve .payments).bind fun _ _ => Payment.gather_paidUp id
  exact ⟨henrollments.outcome stream, hreviews.outcome stream, hpayments.outcome stream⟩

end Academy
