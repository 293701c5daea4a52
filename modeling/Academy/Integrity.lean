import Academy.Dataset

/-!
# The integrity of a dataset

Courses, enrollments, reviews and payments are checked record by record.
A record has to refer to records that are there, a course has to be given
by a specialist where there is one, and what the status or the rating of
a record says has to agree with its other fields.

What a record refers to is looked up in an `Index` of the dataset, and
beyond that no record matters to another. Where several categories or
instructors have the same identifier, the last one counts.
-/

namespace Academy

/-- **A rule that a record breaks.** -/
inductive BrokenRule
  /-- The course has a category that is not there. -/
  | unknownCategory
  /-- The course has an instructor who is not there. -/
  | unknownInstructor
  /-- The course is not given by one of its category's specialists. -/
  | otherSpecialty (specialty category : String)
  /-- The course costs less than nothing. -/
  | negativePrice
  /-- The course takes no time. -/
  | noDuration
  /-- The student is not there. -/
  | unknownStudent
  /-- The course is not there. -/
  | unknownCourse
  /-- So much cannot be done of the course with this status. -/
  | progressOutOfSpan (progress : UInt8) (status : EnrollmentStatus)
  /-- The course is completed without a grade. -/
  | missingGrade
  /-- There is no such grade. -/
  | gradeOutOfRange (grade : Binary64)
  /-- The course has a grade without being completed. -/
  | unexpectedGrade
  /-- The last access is missing, or there against the status. -/
  | lastAccessAgainst (status : EnrollmentStatus)
  /-- There is no such rating. -/
  | ratingOutOfSpan (rating : UInt8)
  /-- The comment is none of the rating's. -/
  | foreignComment
  /-- The amount is less than nothing. -/
  | negativeAmount
  /-- The payment is in other money. -/
  | foreignCurrency (currency : String)
deriving DecidableEq

namespace BrokenRule

/-- What is said about a broken rule. -/
def message : BrokenRule → String
  | unknownCategory => "category_id 未指向已知分类"
  | unknownInstructor => "instructor_id 未指向已知讲师"
  | otherSpecialty specialty category => "讲师专长 " ++ specialty ++ " 与分类 " ++ category ++ " 不匹配"
  | negativePrice => "价格为负数"
  | noDuration => "时长必须大于 0"
  | unknownStudent => "student_id 未指向已知学员"
  | unknownCourse => "course_id 未指向已知课程"
  | progressOutOfSpan progress status =>
    "进度 " ++ toString progress.toNat ++ " 超出 " ++ status.title ++ " 状态的范围"
  | missingGrade => "已完成记录缺少成绩"
  | gradeOutOfRange grade =>
    "成绩 " ++ String.ofList (DecimalStyle.withoutExponent.text grade) ++ " 超出范围"
  | unexpectedGrade => "未完成记录不应有成绩"
  | lastAccessAgainst status => status.title ++ " 状态的最近访问时间不一致"
  | ratingOutOfSpan rating => "评分 " ++ toString rating.toNat ++ " 超出 1-5"
  | foreignComment => "评价文案不属于该评分的文案池"
  | negativeAmount => "金额为负数"
  | foreignCurrency currency => "币种 " ++ currency ++ " 不是 USD"

end BrokenRule

/-- **A record that breaks a rule.** -/
structure Violation (Ref : Type) where
  /-- The collection of the record. -/
  collection : Collection
  /-- What the record is known by. -/
  record : Ref
  /-- The rule. -/
  rule : BrokenRule
deriving DecidableEq

/-- A violation as a line. -/
def Violation.text (v : Violation Identifier) : String :=
  v.collection.name ++ " " ++ v.record.text ++ ": " ++ v.rule.message

/-- **The outcome of a check.** -/
structure IntegrityReport (Ref : Type) where
  /-- How many records have been checked. -/
  checked : Nat
  /-- The broken rules, in the order of the records. -/
  violations : List (Violation Ref)
deriving DecidableEq

/-- Whether no rule is broken. -/
def IntegrityReport.isClean {Ref : Type} (report : IntegrityReport Ref) : Bool :=
  report.violations.isEmpty

/-! ## What is looked up -/

/-- **What records refer to.** -/
structure Index (Ref : Type) where
  /-- The names of the categories, the last category first. -/
  categoryNames : List (Ref × String)
  /-- The specialties of the instructors, the last instructor first. -/
  instructorSpecialties : List (Ref × String)
  /-- The students there are. -/
  students : List Ref
  /-- The courses there are. -/
  courses : List Ref

namespace Index

variable {Ref Date : Type} [DecidableEq Ref]

/-- The index of a dataset. -/
def ofDataset (d : Dataset Ref Date) : Index Ref where
  categoryNames := (d.categories.map fun c => (c.id, c.name)).reverse
  instructorSpecialties := (d.instructors.map fun i => (i.id, i.specialty)).reverse
  students := d.students.map (·.id)
  courses := d.courses.map (·.id)

/-- The name of a category. -/
def categoryName? (index : Index Ref) (category : Ref) : Option String :=
  index.categoryNames.lookup category

/-- The specialty of an instructor. -/
def specialty? (index : Index Ref) (instructor : Ref) : Option String :=
  index.instructorSpecialties.lookup instructor

/-- Whether some instructor has the specialty. -/
def hasSpecialist (index : Index Ref) (specialty : String) : Bool :=
  index.instructorSpecialties.any fun (instructor, _) =>
    index.specialty? instructor = some specialty

end Index

/-! ## The rules -/

section Rules

variable {Ref Date : Type} [DecidableEq Ref]

/-- A rule as a list: the rule if it is broken, and nothing otherwise. -/
def brokenIf (broken : Bool) (rule : BrokenRule) : List BrokenRule :=
  if broken then [rule] else []

/-- A course is given by a specialist of its category where there is one. -/
def specialtyRules (index : Index Ref) : Option String → Option String → List BrokenRule
  | some category, some specialty =>
    brokenIf (index.hasSpecialist category && category ≠ specialty)
      (.otherSpecialty specialty category)
  | _, _ => []

/-- **The rules that a course breaks.** -/
def Course.brokenRules (index : Index Ref) (course : Course Ref Date) : List BrokenRule :=
  let category := index.categoryName? course.category
  let specialty := index.specialty? course.instructor
  brokenIf category.isNone .unknownCategory ++
    brokenIf specialty.isNone .unknownInstructor ++
    specialtyRules index category specialty ++
    brokenIf (course.price.lt 0) .negativePrice ++
    brokenIf (course.hours.le 0) .noDuration

/-- The rules on the student and the course of a record. -/
def participationRules (index : Index Ref) (student course : Ref) : List BrokenRule :=
  brokenIf (!index.students.contains student) .unknownStudent ++
    brokenIf (!index.courses.contains course) .unknownCourse

/-- The rules on the grade of an enrollment. -/
def gradeRules : (hasFinalGrade : Bool) → Option Binary64 → List BrokenRule
  | true, none => [.missingGrade]
  | true, some grade =>
    brokenIf (!(Enrollment.lowestGrade.le grade && grade.le Enrollment.bestGrade))
      (.gradeOutOfRange grade)
  | false, some _ => [.unexpectedGrade]
  | false, none => []

/-- **The rules that an enrollment breaks.** -/
def Enrollment.brokenRules (index : Index Ref) (e : Enrollment Ref Date) : List BrokenRule :=
  participationRules index e.student e.course ++
    brokenIf (!e.status.progress.contains e.progress.toNat)
      (.progressOutOfSpan e.progress e.status) ++
    gradeRules e.status.hasFinalGrade e.finalGrade ++
    brokenIf (e.status.tracksLastAccess != e.lastAccessed.isSome) (.lastAccessAgainst e.status)

/-- The ratings there are. -/
def Review.ratings : Span := ⟨1, 5⟩

/-- **The rules that a review breaks.** -/
def Review.brokenRules (index : Index Ref) (r : Review Ref Date) : List BrokenRule :=
  participationRules index r.student r.course ++
    if Review.ratings.contains r.rating.toNat then
      brokenIf (!(Catalog.comments r.rating).contains r.comment) .foreignComment
    else [.ratingOutOfSpan r.rating]

/-- **The rules that a payment breaks.** -/
def Payment.brokenRules (index : Index Ref) (p : Payment Ref Date) : List BrokenRule :=
  participationRules index p.student p.course ++
    brokenIf (p.amount.lt 0) .negativeAmount ++
    brokenIf (p.currency ≠ Catalog.currency) (.foreignCurrency p.currency)

/-- The violations of a record that breaks some rules. -/
def violationsOf (collection : Collection) (record : Ref) (rules : List BrokenRule) :
    List (Violation Ref) :=
  rules.map fun rule => ⟨collection, record, rule⟩

/-- **The check of a dataset.** -/
def Dataset.check (d : Dataset Ref Date) : IntegrityReport Ref :=
  let index := Index.ofDataset d
  { checked := d.courses.length + d.enrollments.length + d.reviews.length + d.payments.length
    violations :=
      d.courses.flatMap (fun c => violationsOf .courses c.id (c.brokenRules index)) ++
      d.enrollments.flatMap (fun e => violationsOf .enrollments e.id (e.brokenRules index)) ++
      d.reviews.flatMap (fun r => violationsOf .reviews r.id (r.brokenRules index)) ++
      d.payments.flatMap (fun p => violationsOf .payments p.id (p.brokenRules index)) }

end Rules

end Academy
