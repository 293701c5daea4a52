import Academy.Dataset
import Academy.Proofs.Json.Extended

/-!
# What becomes of a record in a file

Two things in a record are not kept by JSON for certain: its dates, which
lose what is finer than a millisecond and of which only those in years of
four digits are read at all, and its numbers that are not whole, which are
written in decimal. A record in which neither of them gets in the way is
`Storable`, and what is read for it is the record with its dates cut off.

All else is kept whatever it is: identifiers, whole numbers, words, and
every string.
-/

namespace Academy

variable {Ref Date : Type}

namespace Dataset.Record

/-- The dates of a record. -/
def dates : (c : Collection) → Record Ref Date c → List Date
  | .categories => fun _ => []
  | .instructors => fun _ => []
  | .students => fun (s : Student Ref Date) => [s.registeredAt]
  | .courses => fun (c : Course Ref Date) => [c.createdAt]
  | .enrollments => fun (e : Enrollment Ref Date) => e.enrolledAt :: e.lastAccessed.toList
  | .reviews => fun (r : Review Ref Date) => [r.createdAt]
  | .payments => fun (p : Payment Ref Date) => [p.paidAt]

/-- A record with its dates changed. -/
def mapDates (f : Date → Date) : (c : Collection) → Record Ref Date c → Record Ref Date c
  | .categories => fun r => r
  | .instructors => fun r => r
  | .students => fun (s : Student Ref Date) => { s with registeredAt := f s.registeredAt }
  | .courses => fun (c : Course Ref Date) => { c with createdAt := f c.createdAt }
  | .enrollments => fun (e : Enrollment Ref Date) =>
    { e with enrolledAt := f e.enrolledAt, lastAccessed := e.lastAccessed.map f }
  | .reviews => fun (r : Review Ref Date) => { r with createdAt := f r.createdAt }
  | .payments => fun (p : Payment Ref Date) => { p with paidAt := f p.paidAt }

/-- The numbers of a record that may not be whole. -/
def numbers : (c : Collection) → Record Ref Date c → List Binary64
  | .categories => fun _ => []
  | .instructors => fun (i : Instructor Ref) => [i.rating]
  | .students => fun _ => []
  | .courses => fun (c : Course Ref Date) => [c.price, c.hours, c.rating]
  | .enrollments => fun (e : Enrollment Ref Date) => e.finalGrade.toList
  | .reviews => fun _ => []
  | .payments => fun (p : Payment Ref Date) => [p.amount]

/-- **A record that a file can hold.** -/
structure Storable (c : Collection) (r : Record Identifier Instant c) : Prop where
  /-- Its dates are in years of four digits. -/
  dates : ∀ t ∈ dates c r, t.FourDigitYear
  /-- Its numbers survive being written in decimal. -/
  numbers : ∀ x ∈ numbers c r, x.Survives

instance (c : Collection) (r : Record Identifier Instant c) : Decidable (Storable c r) :=
  decidable_of_iff ((∀ t ∈ dates c r, t.FourDigitYear) ∧ ∀ x ∈ numbers c r, x.Survives)
    ⟨fun h => ⟨h.1, h.2⟩, fun h => ⟨h.dates, h.numbers⟩⟩

/-- A record that tells no time that is finer than a millisecond. -/
def WholeMillis (c : Collection) (r : Record Identifier Instant c) : Prop :=
  ∀ t ∈ dates c r, 1000000 ∣ t.nanos

end Dataset.Record

namespace Dataset

/-- A dataset with its dates changed. -/
def mapDates {Ref Date : Type} (f : Date → Date) (d : Dataset Ref Date) : Dataset Ref Date :=
  ofRecords fun c => (d.records c).map (Record.mapDates f c)

/-- All dates of a dataset are in years of four digits. -/
def FourDigitYears (d : Dataset Identifier Instant) : Prop :=
  ∀ c, ∀ r ∈ d.records c, ∀ t ∈ Record.dates c r, t.FourDigitYear

instance (d : Dataset Identifier Instant) : Decidable d.FourDigitYears :=
  decidable_of_iff (∀ c ∈ Collection.all, ∀ r ∈ d.records c, ∀ t ∈ Record.dates c r, t.FourDigitYear)
    ⟨fun h c => h c (by cases c <;> decide), fun h c _ => h c⟩

/-- **A dataset that files can hold.** -/
def Storable (d : Dataset Identifier Instant) : Prop :=
  ∀ c, ∀ r ∈ d.records c, Record.Storable c r

instance (d : Dataset Identifier Instant) : Decidable d.Storable :=
  decidable_of_iff (∀ c ∈ Collection.all, ∀ r ∈ d.records c, Record.Storable c r)
    ⟨fun h c => h c (by cases c <;> decide), fun h c _ => h c⟩

end Dataset

/-! ## Words and optional values -/

theorem restores_level (level : Level) : Level.codec.Restores level level :=
  Codec.restores_oneOf (by cases level <;> decide)

theorem restores_studentStatus (status : StudentStatus) :
    StudentStatus.codec.Restores status status :=
  Codec.restores_oneOf (by cases status <;> decide)

theorem restores_enrollmentStatus (status : EnrollmentStatus) :
    EnrollmentStatus.codec.Restores status status :=
  Codec.restores_oneOf (by cases status <;> decide)

theorem restores_paymentStatus (status : PaymentStatus) :
    PaymentStatus.codec.Restores status status :=
  Codec.restores_oneOf (by cases status <;> decide)

namespace Codec

theorem restores_optional_binary64 {x : Option Binary64} (h : ∀ y ∈ x.toList, y.Survives) :
    binary64.nullable.Restores x x := by
  cases x with
  | none => exact restores_none binary64
  | some x =>
    have hx : x.Survives := h x List.mem_cons_self
    refine restores_some (restores_binary64 hx) ?_
    rw [binary64_encode hx]
    exact Json.noConfusion

theorem restores_optional_instant {t : Option Instant} (h : ∀ u ∈ t.toList, u.FourDigitYear) :
    instant.nullable.Restores t (t.map Instant.truncate) := by
  cases t with
  | none => exact restores_none instant
  | some t => exact restores_some (restores_instant (h t List.mem_cons_self)) Json.noConfusion

end Codec

/-! ## Records -/

section

open Codec

theorem Category.restores (c : Category Identifier) : Category.codec.Restores c c :=
  restores_correspond (a := (c.id, c.name, c.description, ()))
    (restores_record (by decide)
      ⟨restores_identifier _, restores_string _, restores_string _, trivial⟩) rfl

theorem Instructor.restores {i : Instructor Identifier} (h : i.rating.Survives) :
    Instructor.codec.Restores i i :=
  restores_correspond
    (a := (i.id, i.name, i.email, i.bio, i.specialty, i.country, i.rating, i.totalStudents, ()))
    (restores_record (by decide)
      ⟨restores_identifier _, restores_string _, restores_string _, restores_string _,
        restores_string _, restores_string _, restores_binary64 h, restores_uint32 _, trivial⟩) rfl

theorem Student.restores {s : Student Identifier Instant} (h : s.registeredAt.FourDigitYear) :
    Student.codec.Restores s { s with registeredAt := s.registeredAt.truncate } :=
  restores_correspond
    (a := (s.id, s.name, s.email, s.country, s.registeredAt.truncate, s.status, s.age, ()))
    (restores_record (by decide)
      ⟨restores_identifier _, restores_string _, restores_string _, restores_string _,
        restores_instant h, restores_studentStatus _, restores_uint8 _, trivial⟩) rfl

theorem Course.restores {c : Course Identifier Instant} (hcreated : c.createdAt.FourDigitYear)
    (hprice : c.price.Survives) (hhours : c.hours.Survives) (hrating : c.rating.Survives) :
    Course.codec.Restores c { c with createdAt := c.createdAt.truncate } :=
  restores_correspond
    (a := (c.id, c.title, c.description, c.category, c.instructor, c.price, c.hours,
      c.createdAt.truncate, c.tags, c.rating, c.enrolledCount, c.level, ()))
    (restores_record (by decide)
      ⟨restores_identifier _, restores_string _, restores_string _, restores_identifier _,
        restores_identifier _, restores_binary64 hprice, restores_binary64 hhours,
        restores_instant hcreated, restores_list fun _ _ => restores_string _,
        restores_binary64 hrating, restores_uint32 _, restores_level _, trivial⟩) rfl

theorem Enrollment.restores {e : Enrollment Identifier Instant}
    (henrolled : e.enrolledAt.FourDigitYear) (hgrade : ∀ x ∈ e.finalGrade.toList, x.Survives)
    (haccessed : ∀ t ∈ e.lastAccessed.toList, t.FourDigitYear) :
    Enrollment.codec.Restores e { e with
      enrolledAt := e.enrolledAt.truncate, lastAccessed := e.lastAccessed.map Instant.truncate } :=
  restores_correspond
    (a := (e.id, e.student, e.course, e.enrolledAt.truncate, e.status, e.progress, e.finalGrade,
      e.lastAccessed.map Instant.truncate, ()))
    (restores_record (by decide)
      ⟨restores_identifier _, restores_identifier _, restores_identifier _,
        restores_instant henrolled, restores_enrollmentStatus _, restores_uint8 _,
        restores_optional_binary64 hgrade, restores_optional_instant haccessed, trivial⟩) rfl

theorem Review.restores {r : Review Identifier Instant} (h : r.createdAt.FourDigitYear) :
    Review.codec.Restores r { r with createdAt := r.createdAt.truncate } :=
  restores_correspond
    (a := (r.id, r.course, r.student, r.rating, r.comment, r.createdAt.truncate, r.helpfulCount,
      ()))
    (restores_record (by decide)
      ⟨restores_identifier _, restores_identifier _, restores_identifier _, restores_uint8 _,
        restores_string _, restores_instant h, restores_uint32 _, trivial⟩) rfl

theorem Payment.restores {p : Payment Identifier Instant} (hpaid : p.paidAt.FourDigitYear)
    (hamount : p.amount.Survives) :
    Payment.codec.Restores p { p with paidAt := p.paidAt.truncate } :=
  restores_correspond
    (a := (p.id, p.student, p.course, p.amount, p.currency, p.paidAt.truncate, p.method, p.status,
      p.transaction, ()))
    (restores_record (by decide)
      ⟨restores_identifier _, restores_identifier _, restores_identifier _,
        restores_binary64 hamount, restores_string _, restores_instant hpaid, restores_string _,
        restores_paymentStatus _, restores_string _, trivial⟩) rfl

end

/-- **A record is read as it was written**, with its dates cut off. -/
theorem Collection.restores (c : Collection) {r : Dataset.Record Identifier Instant c}
    (h : Dataset.Record.Storable c r) :
    c.codec.Restores r (Dataset.Record.mapDates Instant.truncate c r) := by
  obtain ⟨hdates, hnumbers⟩ := h
  cases c with
  | categories => exact Category.restores r
  | instructors => exact Instructor.restores (hnumbers _ List.mem_cons_self)
  | students => exact Student.restores (hdates _ List.mem_cons_self)
  | courses =>
    obtain ⟨hprice, hnumbers⟩ := List.forall_mem_cons.mp hnumbers
    obtain ⟨hhours, hnumbers⟩ := List.forall_mem_cons.mp hnumbers
    exact Course.restores (hdates _ List.mem_cons_self) hprice hhours
      (hnumbers _ List.mem_cons_self)
  | enrollments =>
    obtain ⟨henrolled, haccessed⟩ := List.forall_mem_cons.mp hdates
    exact Enrollment.restores henrolled hnumbers haccessed
  | reviews => exact Review.restores (hdates _ List.mem_cons_self)
  | payments =>
    exact Payment.restores (hdates _ List.mem_cons_self) (hnumbers _ List.mem_cons_self)

/-! ## Records to the millisecond -/

theorem Instant.truncate_of_dvd {t : Instant} (h : 1000000 ∣ t.nanos) : t.truncate = t := by
  obtain ⟨seconds, nanos, hnanos⟩ := t
  have hexact : nanos / 1000000 * 1000000 = nanos := Nat.div_mul_cancel h
  simp only [truncate, hexact]

theorem Dataset.Record.mapDates_eq_self {c : Collection} {r : Record Ref Date c} {f : Date → Date}
    (h : ∀ t ∈ dates c r, f t = t) : mapDates f c r = r := by
  cases c with
  | categories => rfl
  | instructors => rfl
  | students =>
    let s : Student Ref Date := r
    exact congrArg (fun t => { s with registeredAt := t }) (h _ List.mem_cons_self)
  | courses =>
    let c : Course Ref Date := r
    exact congrArg (fun t => { c with createdAt := t }) (h _ List.mem_cons_self)
  | enrollments =>
    let e : Enrollment Ref Date := r
    obtain ⟨henrolled, haccessed⟩ := List.forall_mem_cons.mp h
    have hlast : e.lastAccessed.map f = e.lastAccessed := by
      cases hsome : e.lastAccessed with
      | none => rfl
      | some t => exact congrArg some (haccessed t (Option.mem_toList.mpr hsome))
    exact congrArg₂ (fun t u => { e with enrolledAt := t, lastAccessed := u }) henrolled hlast
  | reviews =>
    let v : Review Ref Date := r
    exact congrArg (fun t => { v with createdAt := t }) (h _ List.mem_cons_self)
  | payments =>
    let p : Payment Ref Date := r
    exact congrArg (fun t => { p with paidAt := t }) (h _ List.mem_cons_self)

/-- **A storable record that is whole in milliseconds is read as it was written.** -/
theorem Collection.restores_self (c : Collection) {r : Dataset.Record Identifier Instant c}
    (h : Dataset.Record.Storable c r) (hmillis : Dataset.Record.WholeMillis c r) :
    c.codec.Restores r r := by
  have hsame := Dataset.Record.mapDates_eq_self (f := Instant.truncate) fun t ht =>
    Instant.truncate_of_dvd (hmillis t ht)
  have hrestores := c.restores h
  rwa [hsame] at hrestores

end Academy
