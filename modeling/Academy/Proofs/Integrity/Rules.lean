import Academy.CommandLine.Run
import Academy.Host

/-!
# The check of a dataset is exact

The check gathers lists of broken rules, record by record. What it comes
to can be said without lists: a rule is something that a record breaks or
keeps, given what it refers to, and that is `CheckedRecord.Breaks`. This
module proves that the two agree – no rule is missed, none is reported
that is kept, and none is reported twice.

What a record refers to is a `References`, and it is all that the check
of a record sees of the dataset around it. The references of a dataset
are stated directly: of several records with one identifier the last one
counts, whichever way the check looks them up. The rule on specialties is
the one that looks at more than what the record names, since it asks of
*all* instructors whether one of them has the specialty; what it asks is
still a question to the references alone.
-/

namespace Academy

/-! ## What records refer to -/

/-- **What there is to refer to**, and what is known of it. -/
@[ext]
structure References (Ref : Type) where
  /-- The name of a category. -/
  categoryName : Ref → Option String
  /-- The specialty of an instructor. -/
  specialty : Ref → Option String
  /-- Whether there is a student. -/
  student : Ref → Prop
  /-- Whether there is a course. -/
  course : Ref → Prop

section

variable {Ref Date : Type} [DecidableEq Ref]

/-- **The references of a dataset.** Of the categories and of the instructors
with an identifier, the last one counts. -/
def Dataset.references (d : Dataset Ref Date) : References Ref where
  categoryName r := ((d.categories.filter (·.id = r)).getLast?).map (·.name)
  specialty r := ((d.instructors.filter (·.id = r)).getLast?).map (·.specialty)
  student r := ∃ s ∈ d.students, s.id = r
  course r := ∃ c ∈ d.courses, c.id = r

/-- The references of what is looked up. -/
def Index.references (index : Index Ref) : References Ref where
  categoryName := index.categoryName?
  specialty := index.specialty?
  student r := r ∈ index.students
  course r := r ∈ index.courses

/-- In a reversed list of pairs, the last pair of a key is found. -/
theorem lookup_reverse_map {α β : Type} (l : List α) (key : α → Ref) (value : α → β) (r : Ref) :
    ((l.map fun a => (key a, value a)).reverse).lookup r
      = ((l.filter (key · = r)).getLast?).map value := by
  rw [List.getLast?_filter, ← List.map_reverse]
  induction l.reverse with
  | nil => rfl
  | cons a l ih =>
    rw [List.map_cons, List.lookup_cons, List.find?_cons, ih]
    by_cases h : key a = r
    · subst h
      simp
    · have hr : (r == key a) = false := by simpa using fun e => h e.symm
      simp [h, hr]

/-- **The index of a dataset has the references of the dataset.** -/
@[simp] theorem Index.references_ofDataset (d : Dataset Ref Date) :
    (Index.ofDataset d).references = d.references := by
  refine References.ext ?_ ?_ ?_ ?_
  · funext r
    exact lookup_reverse_map d.categories (·.id) (·.name) r
  · funext r
    exact lookup_reverse_map d.instructors (·.id) (·.specialty) r
  · funext r
    simp [Index.references, Index.ofDataset, Dataset.references]
  · funext r
    simp [Index.references, Index.ofDataset, Dataset.references]

/-- A specialist is found if and only if some instructor has the specialty. -/
@[simp] theorem Index.hasSpecialist_iff (index : Index Ref) (specialty : String) :
    index.hasSpecialist specialty = true ↔ ∃ r, index.references.specialty r = some specialty := by
  unfold Index.hasSpecialist Index.references
  rw [List.any_eq_true]
  constructor
  · rintro ⟨⟨r, _⟩, _, h⟩
    exact ⟨r, of_decide_eq_true h⟩
  · rintro ⟨r, h⟩
    -- an instructor whose specialty is known has an entry of their own
    have found := h
    unfold Index.specialty? at found
    obtain ⟨before, after, entries, _⟩ := List.lookup_eq_some_iff.mp found
    exact ⟨(r, specialty), by rw [entries]; simp, decide_eq_true h⟩

/-! ## Breaking a rule -/

/-- **The rules that a course breaks.** The rule on specialties names both
specialties, and it matters only where there is a specialist. -/
def Course.Breaks (refs : References Ref) (course : Course Ref Date) : BrokenRule → Prop
  | .unknownCategory => refs.categoryName course.category = none
  | .unknownInstructor => refs.specialty course.instructor = none
  | .otherSpecialty specialty category =>
    refs.categoryName course.category = some category ∧
      refs.specialty course.instructor = some specialty ∧
      category ≠ specialty ∧ ∃ instructor, refs.specialty instructor = some category
  | .negativePrice => course.price.lt 0 = true
  | .noDuration => course.hours.le 0 = true
  | _ => False

/-- **The rules that an enrollment breaks.** -/
def Enrollment.Breaks (refs : References Ref) (e : Enrollment Ref Date) : BrokenRule → Prop
  | .unknownStudent => ¬ refs.student e.student
  | .unknownCourse => ¬ refs.course e.course
  | .progressOutOfSpan progress status =>
    progress = e.progress ∧ status = e.status ∧
      ¬ (e.status.progress.low ≤ e.progress.toNat ∧ e.progress.toNat ≤ e.status.progress.high)
  | .missingGrade => e.status = .completed ∧ e.finalGrade = none
  | .gradeOutOfRange grade =>
    e.status = .completed ∧ e.finalGrade = some grade ∧
      ¬ ((65 : Binary64).le grade = true ∧ grade.le 100 = true)
  | .unexpectedGrade => e.status ≠ .completed ∧ e.finalGrade ≠ none
  | .lastAccessAgainst status =>
    status = e.status ∧ ¬ (e.lastAccessed.isSome = true ↔ e.status = .inProgress)
  | _ => False

/-- **The rules that a review breaks.** What is said in a review is for the
ratings from one to five to restrict: any other has no comments of its
own, and breaks the rule on ratings alone. -/
def Review.Breaks (refs : References Ref) (r : Review Ref Date) : BrokenRule → Prop
  | .unknownStudent => ¬ refs.student r.student
  | .unknownCourse => ¬ refs.course r.course
  | .ratingOutOfSpan rating => rating = r.rating ∧ ¬ (1 ≤ r.rating.toNat ∧ r.rating.toNat ≤ 5)
  | .foreignComment =>
    (1 ≤ r.rating.toNat ∧ r.rating.toNat ≤ 5) ∧ r.comment ∉ Catalog.comments r.rating
  | _ => False

/-- **The rules that a payment breaks.** -/
def Payment.Breaks (refs : References Ref) (p : Payment Ref Date) : BrokenRule → Prop
  | .unknownStudent => ¬ refs.student p.student
  | .unknownCourse => ¬ refs.course p.course
  | .negativeAmount => p.amount.lt 0 = true
  | .foreignCurrency currency => currency = p.currency ∧ p.currency ≠ "USD"
  | _ => False

/-! ## The lists say who breaks what -/

@[simp] theorem mem_brokenIf {broken : Bool} {rule rule' : BrokenRule} :
    rule' ∈ brokenIf broken rule ↔ broken = true ∧ rule' = rule := by
  unfold brokenIf
  cases broken <;> simp

@[simp] theorem mem_specialtyRules {index : Index Ref} {category specialty : Option String}
    {rule : BrokenRule} :
    rule ∈ specialtyRules index category specialty ↔
      ∃ c s, category = some c ∧ specialty = some s ∧ c ≠ s ∧
        (∃ r, index.references.specialty r = some c) ∧ rule = .otherSpecialty s c := by
  rcases category with _ | c
  · simp [specialtyRules]
  · rcases specialty with _ | s
    · simp [specialtyRules]
    · simp only [specialtyRules, mem_brokenIf, Bool.and_eq_true, decide_eq_true_eq,
        Index.hasSpecialist_iff, Option.some.injEq, exists_and_left, exists_eq_left', and_assoc,
        and_left_comm]

@[simp] theorem Course.mem_brokenRules {index : Index Ref} {course : Course Ref Date}
    {rule : BrokenRule} :
    rule ∈ course.brokenRules index ↔ course.Breaks index.references rule := by
  simp only [Course.brokenRules, List.mem_append, mem_brokenIf, mem_specialtyRules,
    Option.isNone_iff_eq_none]
  cases rule with
  | otherSpecialty specialty category =>
    simp only [Course.Breaks, Index.references, reduceCtorEq, and_false, or_false, false_or]
    constructor
    · rintro ⟨c, s, hc, hs, hne, hr, heq⟩
      cases heq
      exact ⟨hc, hs, hne, hr⟩
    · rintro ⟨hc, hs, hne, hr⟩
      exact ⟨category, specialty, hc, hs, hne, hr, rfl⟩
  | _ => simp [Course.Breaks, Index.references]

@[simp]
theorem mem_participationRules {index : Index Ref} {student course : Ref} {rule : BrokenRule} :
    rule ∈ participationRules index student course ↔
      (¬ index.references.student student ∧ rule = .unknownStudent) ∨
      (¬ index.references.course course ∧ rule = .unknownCourse) := by
  simp [participationRules, Index.references]

@[simp] theorem mem_gradeRules {status : EnrollmentStatus} {grade : Option Binary64}
    {rule : BrokenRule} :
    rule ∈ gradeRules status.hasFinalGrade grade ↔
      (status = .completed ∧ grade = none ∧ rule = .missingGrade) ∨
      (∃ g, status = .completed ∧ grade = some g ∧
        ¬ ((65 : Binary64).le g = true ∧ g.le 100 = true) ∧ rule = .gradeOutOfRange g) ∨
      (status ≠ .completed ∧ grade ≠ none ∧ rule = .unexpectedGrade) := by
  have hbounds : ∀ g : Binary64,
      (!(Enrollment.lowestGrade.le g && g.le Enrollment.bestGrade)) = true ↔
        ¬ ((65 : Binary64).le g = true ∧ g.le 100 = true) := by
    intro g
    rw [Bool.not_eq_true', ← Bool.not_eq_true, Bool.and_eq_true]
    rfl
  rcases grade with _ | g
  · cases status <;> simp [gradeRules, EnrollmentStatus.hasFinalGrade]
  · cases status with
    | completed =>
      simp only [gradeRules, EnrollmentStatus.hasFinalGrade, mem_brokenIf, hbounds]
      simp
    | _ => simp [gradeRules, EnrollmentStatus.hasFinalGrade]

@[simp] theorem Enrollment.mem_brokenRules {index : Index Ref} {e : Enrollment Ref Date}
    {rule : BrokenRule} :
    rule ∈ e.brokenRules index ↔ e.Breaks index.references rule := by
  have hspan : (!e.status.progress.contains e.progress.toNat) = true ↔
      ¬ (e.status.progress.low ≤ e.progress.toNat ∧
        e.progress.toNat ≤ e.status.progress.high) := by
    rw [Bool.not_eq_true', ← Bool.not_eq_true, Span.contains_iff]
  have haccess : (e.status.tracksLastAccess != e.lastAccessed.isSome) = true ↔
      ¬ (e.lastAccessed.isSome = true ↔ e.status = .inProgress) := by
    cases e.status <;> cases e.lastAccessed <;> simp [EnrollmentStatus.tracksLastAccess]
  simp only [Enrollment.brokenRules, List.mem_append, mem_brokenIf, mem_participationRules,
    mem_gradeRules, hspan, haccess]
  cases rule with
  | progressOutOfSpan progress status =>
    simp only [Enrollment.Breaks, BrokenRule.progressOutOfSpan.injEq, reduceCtorEq, and_false,
      or_false, false_or, exists_false]
    exact ⟨fun ⟨h, hp, hs⟩ => ⟨hp, hs, h⟩, fun ⟨hp, hs, h⟩ => ⟨h, hp, hs⟩⟩
  | gradeOutOfRange grade =>
    simp only [Enrollment.Breaks, BrokenRule.gradeOutOfRange.injEq, reduceCtorEq, and_false,
      or_false, false_or]
    constructor
    · rintro ⟨g, hs, hg, hb, rfl⟩
      exact ⟨hs, hg, hb⟩
    · rintro ⟨hs, hg, hb⟩
      exact ⟨grade, hs, hg, hb, rfl⟩
  | lastAccessAgainst status =>
    simp only [Enrollment.Breaks, BrokenRule.lastAccessAgainst.injEq, reduceCtorEq, and_false,
      or_false, false_or, exists_false]
    exact and_comm
  | _ => simp [Enrollment.Breaks]

@[simp]
theorem Review.mem_brokenRules {index : Index Ref} {r : Review Ref Date} {rule : BrokenRule} :
    rule ∈ r.brokenRules index ↔ r.Breaks index.references rule := by
  have hspan : Review.ratings.contains r.rating.toNat = true ↔
      1 ≤ r.rating.toNat ∧ r.rating.toNat ≤ 5 := Span.contains_iff
  unfold Review.brokenRules
  rw [List.mem_append, mem_participationRules]
  unfold Review.Breaks
  by_cases h : 1 ≤ r.rating.toNat ∧ r.rating.toNat ≤ 5
  · rw [if_pos (hspan.mpr h)]
    cases rule <;> simp [h]
  · rw [if_neg (mt hspan.mp h), List.mem_singleton]
    cases rule <;> simp [h]

@[simp] theorem Payment.mem_brokenRules {index : Index Ref} {p : Payment Ref Date}
    {rule : BrokenRule} :
    rule ∈ p.brokenRules index ↔ p.Breaks index.references rule := by
  simp only [Payment.brokenRules, List.mem_append, mem_brokenIf, mem_participationRules,
    decide_eq_true_eq]
  cases rule <;> simp [Payment.Breaks, Catalog.currency, and_comm]

/-! ## What a list depends on -/

/-- **The references decide the list of a course.** -/
theorem Course.brokenRules_congr {i j : Index Ref} (h : i.references = j.references)
    (course : Course Ref Date) : course.brokenRules i = course.brokenRules j := by
  have hname : i.categoryName? = j.categoryName? := congrArg References.categoryName h
  have hspecialty : i.specialty? = j.specialty? := congrArg References.specialty h
  have hspecialist : i.hasSpecialist = j.hasSpecialist := by
    funext specialty
    rw [Bool.eq_iff_iff, Index.hasSpecialist_iff, Index.hasSpecialist_iff, h]
  have hrules : specialtyRules i = specialtyRules j := by
    funext category specialty
    unfold specialtyRules
    rw [hspecialist]
  unfold Course.brokenRules
  rw [hname, hspecialty, hrules]

theorem participationRules_congr {i j : Index Ref} (h : i.references = j.references) :
    participationRules i = participationRules j := by
  funext student course
  have hstudent : i.students.contains student = j.students.contains student := by
    rw [Bool.eq_iff_iff, List.contains_iff_mem, List.contains_iff_mem]
    exact iff_of_eq (congrFun (congrArg References.student h) student)
  have hcourse : i.courses.contains course = j.courses.contains course := by
    rw [Bool.eq_iff_iff, List.contains_iff_mem, List.contains_iff_mem]
    exact iff_of_eq (congrFun (congrArg References.course h) course)
  unfold participationRules
  rw [hstudent, hcourse]

/-! ## No rule is listed twice -/

theorem brokenIf_sublist (broken : Bool) (rule : BrokenRule) :
    (brokenIf broken rule).Sublist [rule] := by
  cases broken
  · exact List.nil_sublist _
  · exact List.Sublist.refl _

theorem Course.nodup_brokenRules (index : Index Ref) (course : Course Ref Date) :
    (course.brokenRules index).Nodup := by
  -- the names of the specialties do not matter, only that there is one such rule at most
  have hspecialty : ∀ category specialty, ∃ s c : String,
      (specialtyRules index category specialty).Sublist [.otherSpecialty s c] := by
    intro category specialty
    rcases category with _ | c
    · exact ⟨"", "", List.nil_sublist _⟩
    · rcases specialty with _ | s
      · exact ⟨"", "", List.nil_sublist _⟩
      · exact ⟨s, c, brokenIf_sublist _ _⟩
  obtain ⟨s, c, hsublist⟩ := hspecialty (index.categoryName? course.category)
    (index.specialty? course.instructor)
  have hall : (course.brokenRules index).Sublist
      ([.unknownCategory] ++ [.unknownInstructor] ++ [.otherSpecialty s c] ++ [.negativePrice]
        ++ [.noDuration]) :=
    ((((brokenIf_sublist _ _).append (brokenIf_sublist _ _)).append hsublist).append
      (brokenIf_sublist _ _)).append (brokenIf_sublist _ _)
  exact hall.nodup (by simp)

theorem participationRules_sublist (index : Index Ref) (student course : Ref) :
    (participationRules index student course).Sublist [.unknownStudent, .unknownCourse] :=
  (brokenIf_sublist _ _).append (brokenIf_sublist _ _)

theorem gradeRules_sublist (hasFinalGrade : Bool) (grade : Option Binary64) :
    ∃ rule ∈ [.missingGrade, .unexpectedGrade, .gradeOutOfRange (grade.getD 0)],
      (gradeRules hasFinalGrade grade).Sublist [rule] := by
  cases hasFinalGrade <;> rcases grade with _ | g
  · exact ⟨.missingGrade, by simp, List.nil_sublist _⟩
  · exact ⟨.unexpectedGrade, by simp, List.Sublist.refl _⟩
  · exact ⟨.missingGrade, by simp, List.Sublist.refl _⟩
  · exact ⟨.gradeOutOfRange g, by simp, brokenIf_sublist _ _⟩

theorem Enrollment.nodup_brokenRules (index : Index Ref) (e : Enrollment Ref Date) :
    (e.brokenRules index).Nodup := by
  obtain ⟨rule, hrule, hgrade⟩ := gradeRules_sublist e.status.hasFinalGrade e.finalGrade
  have hall : (e.brokenRules index).Sublist
      ([.unknownStudent, .unknownCourse] ++ [.progressOutOfSpan e.progress e.status] ++ [rule]
        ++ [.lastAccessAgainst e.status]) :=
    (((participationRules_sublist _ _ _).append (brokenIf_sublist _ _)).append hgrade).append
      (brokenIf_sublist _ _)
  refine hall.nodup ?_
  simp only [List.mem_cons, List.not_mem_nil, or_false] at hrule
  rcases hrule with rfl | rfl | rfl <;> simp

theorem Review.nodup_brokenRules (index : Index Ref) (r : Review Ref Date) :
    (r.brokenRules index).Nodup := by
  unfold Review.brokenRules
  split
  · refine (List.Sublist.append (participationRules_sublist _ _ _)
      (brokenIf_sublist _ _)).nodup ?_
    simp
  · refine (List.Sublist.append (participationRules_sublist _ _ _)
      (List.Sublist.refl _)).nodup ?_
    simp

theorem Payment.nodup_brokenRules (index : Index Ref) (p : Payment Ref Date) :
    (p.brokenRules index).Nodup := by
  have hall : (p.brokenRules index).Sublist
      ([.unknownStudent, .unknownCourse] ++ [.negativeAmount] ++ [.foreignCurrency p.currency]) :=
    ((participationRules_sublist _ _ _).append (brokenIf_sublist _ _)).append
      (brokenIf_sublist _ _)
  exact hall.nodup (by simp)

end

/-! ## The records of a dataset together -/

/-- **A record that is checked.** -/
inductive CheckedRecord (Ref Date : Type)
  | course (c : Course Ref Date)
  | enrollment (e : Enrollment Ref Date)
  | review (r : Review Ref Date)
  | payment (p : Payment Ref Date)

namespace CheckedRecord

variable {Ref Date : Type}

/-- The collection of the record. -/
def collection : CheckedRecord Ref Date → Collection
  | course _ => .courses
  | enrollment _ => .enrollments
  | review _ => .reviews
  | payment _ => .payments

/-- What the record is known by. -/
def id : CheckedRecord Ref Date → Ref
  | course c => c.id
  | enrollment e => e.id
  | review r => r.id
  | payment p => p.id

variable [DecidableEq Ref]

/-- The list of the rules that the record breaks. -/
def brokenRules (index : Index Ref) : CheckedRecord Ref Date → List BrokenRule
  | course c => c.brokenRules index
  | enrollment e => e.brokenRules index
  | review r => r.brokenRules index
  | payment p => p.brokenRules index

omit [DecidableEq Ref] in
/-- **The rules that the record breaks.** -/
def Breaks (refs : References Ref) : CheckedRecord Ref Date → BrokenRule → Prop
  | course c => c.Breaks refs
  | enrollment e => e.Breaks refs
  | review r => r.Breaks refs
  | payment p => p.Breaks refs

@[simp] theorem mem_brokenRules {index : Index Ref} {record : CheckedRecord Ref Date}
    {rule : BrokenRule} :
    rule ∈ record.brokenRules index ↔ record.Breaks index.references rule := by
  cases record <;> simp [brokenRules, Breaks]

theorem nodup_brokenRules (index : Index Ref) (record : CheckedRecord Ref Date) :
    (record.brokenRules index).Nodup := by
  cases record with
  | course c => exact c.nodup_brokenRules index
  | enrollment e => exact e.nodup_brokenRules index
  | review r => exact r.nodup_brokenRules index
  | payment p => exact p.nodup_brokenRules index

/-- **The references decide the list of a record**, with its order. -/
theorem brokenRules_congr {i j : Index Ref} (h : i.references = j.references)
    (record : CheckedRecord Ref Date) : record.brokenRules i = record.brokenRules j := by
  cases record with
  | course c => exact c.brokenRules_congr h
  | enrollment e => simp only [brokenRules, Enrollment.brokenRules, participationRules_congr h]
  | review r => simp only [brokenRules, Review.brokenRules, participationRules_congr h]
  | payment p => simp only [brokenRules, Payment.brokenRules, participationRules_congr h]

end CheckedRecord

namespace Dataset

variable {Ref Date : Type}

/-- **The records that are checked**, in the order in which they are. -/
def checkedRecords (d : Dataset Ref Date) : List (CheckedRecord Ref Date) :=
  d.courses.map .course ++ d.enrollments.map .enrollment ++ d.reviews.map .review ++
    d.payments.map .payment

variable [DecidableEq Ref]

/-- **A dataset whose records keep all the rules.** -/
def KeepsRules (d : Dataset Ref Date) : Prop :=
  ∀ record ∈ d.checkedRecords, ∀ rule, ¬ record.Breaks d.references rule

/-- The violations are those of the checked records, one after the other. -/
theorem check_violations (d : Dataset Ref Date) :
    d.check.violations = d.checkedRecords.flatMap fun record =>
      violationsOf record.collection record.id (record.brokenRules (Index.ofDataset d)) := by
  unfold check checkedRecords
  simp only [List.flatMap_append, List.flatMap_map]
  rfl

@[simp]
theorem check_checked (d : Dataset Ref Date) : d.check.checked = d.checkedRecords.length := by
  simp [check, checkedRecords, Nat.add_assoc]

theorem mem_brokenRules_ofDataset {d : Dataset Ref Date} {record : CheckedRecord Ref Date}
    {rule : BrokenRule} :
    rule ∈ record.brokenRules (Index.ofDataset d) ↔ record.Breaks d.references rule := by
  simp

/-- **There are no violations if and only if all rules are kept.** -/
@[simp] theorem check_violations_eq_nil_iff (d : Dataset Ref Date) :
    d.check.violations = [] ↔ d.KeepsRules := by
  rw [check_violations, List.flatMap_eq_nil_iff]
  refine forall₂_congr fun record _ => ?_
  rw [violationsOf, List.map_eq_nil_iff, List.eq_nil_iff_forall_not_mem]
  exact forall_congr' fun rule => not_congr mem_brokenRules_ofDataset

@[simp]
theorem check_isClean_iff (d : Dataset Ref Date) : d.check.isClean = true ↔ d.KeepsRules := by
  simp [IntegrityReport.isClean]

end Dataset

/-- A clean report lets a run go on, and any other stops it with all its
violations. -/
theorem IntegrityReport.run_requireClean (report : IntegrityReport Identifier)
    (machine : Machine) :
    (report.requireClean : ExceptT Failure (StateM Machine) Unit).run.run machine
      = (if report.isClean then .ok () else .error (.integrity report.violations), machine) := by
  unfold requireClean
  split <;> rfl

/-- **The check is exact.** The violations of a dataset are those of its
courses, enrollments, reviews and payments, record by record in their
order, and all of these are counted. The list of a record depends on the
record and on the references of the dataset and on nothing else; it lists
the rules that the record breaks, each of them once. So a report is clean,
and lets a run go on, if and only if every record keeps every rule. -/
theorem check_exact {Date : Type} (d : Dataset Identifier Date) :
    d.check.violations = (d.checkedRecords.flatMap fun record =>
        violationsOf record.collection record.id (record.brokenRules (Index.ofDataset d))) ∧
      d.check.checked = d.checkedRecords.length ∧
      (∀ e : Dataset Identifier Date, e.references = d.references →
        ∀ record : CheckedRecord Identifier Date,
          record.brokenRules (Index.ofDataset e) = record.brokenRules (Index.ofDataset d)) ∧
      (∀ record : CheckedRecord Identifier Date,
        (record.brokenRules (Index.ofDataset d)).Nodup ∧
        ∀ rule, rule ∈ record.brokenRules (Index.ofDataset d) ↔
          record.Breaks d.references rule) ∧
      (d.check.isClean = true ↔ d.KeepsRules) ∧
      ∀ machine : Machine,
        (d.check.requireClean : ExceptT Failure (StateM Machine) Unit).run.run machine
            = (.ok (), machine) ↔ d.KeepsRules := by
  refine ⟨d.check_violations, d.check_checked, ?_, ?_, d.check_isClean_iff, ?_⟩
  · intro e he record
    refine record.brokenRules_congr ?_
    rw [Index.references_ofDataset, Index.references_ofDataset, he]
  · intro record
    exact ⟨record.nodup_brokenRules _, fun rule => Dataset.mem_brokenRules_ofDataset⟩
  · intro machine
    rw [IntegrityReport.run_requireClean, ← d.check_isClean_iff]
    cases d.check.isClean with
    | true => exact iff_of_true rfl rfl
    | false => exact iff_of_false (fun h => nomatch congrArg Prod.fst h) Bool.false_ne_true

end Academy
