import Academy.Proofs.Records.Stored

/-!
# What records are known by

A record has a name of its own, it names other records, and it has dates.
Everything else in it is its *content*. Nothing that is made depends on
what names and dates look like, and the way to say so is to put others in
their place: a `Renaming` is a new name for each name and a new date for
each date.

The name of a record itself and the names of others in it are renamed
apart. That is the difference between a renaming that carries a whole
dataset over into another one, where both have to be renamed alike, and
one that only forgets what each record is known by itself and leaves open
nothing of what it refers to.
-/

namespace Academy

variable {Ref Ref' Date Date' : Type}

/-- **New names and new dates.** -/
structure Renaming (Ref Date Ref' Date' : Type) where
  /-- What a record itself is known by. -/
  own : Ref → Ref'
  /-- What the records are known by to which it refers. -/
  other : Ref → Ref'
  /-- When things happen. -/
  date : Date → Date'

namespace Renaming

/-- The renaming of the records to which others refer. -/
def others (ρ : Renaming Ref Date Ref' Date') : Renaming Ref Date Ref' Date' :=
  { ρ with own := ρ.other }

/-- All names alike, whether of the record itself or of others. -/
def uniform (name : Ref → Ref') (date : Date → Date') : Renaming Ref Date Ref' Date' :=
  ⟨name, name, date⟩

/-- Everything stays as it is. -/
def unchanged : Renaming Ref Date Ref Date :=
  ⟨fun r => r, fun r => r, fun t => t⟩

/-- Only what each record itself is known by becomes the same for all. -/
def alike (r : Ref) : Renaming Ref Date Ref Date :=
  { unchanged with own := fun _ => r }

/-- Nothing is left of names and dates. -/
def forget : Renaming Ref Date Unit Unit :=
  uniform (fun _ => ()) fun _ => ()

end Renaming

/-! ## Records -/

section

variable (ρ : Renaming Ref Date Ref' Date')

/-- A category with other names. -/
def Category.rename (c : Category Ref) : Category Ref' :=
  { c with id := ρ.own c.id }

/-- An instructor with other names. -/
def Instructor.rename (i : Instructor Ref) : Instructor Ref' :=
  { i with id := ρ.own i.id }

/-- A student with other names and dates. -/
def Student.rename (s : Student Ref Date) : Student Ref' Date' :=
  { s with id := ρ.own s.id, registeredAt := ρ.date s.registeredAt }

/-- A course with other names and dates. -/
def Course.rename (c : Course Ref Date) : Course Ref' Date' :=
  { c with
    id := ρ.own c.id
    category := ρ.other c.category
    instructor := ρ.other c.instructor
    createdAt := ρ.date c.createdAt }

/-- An enrollment with other names and dates. -/
def Enrollment.rename (e : Enrollment Ref Date) : Enrollment Ref' Date' :=
  { e with
    id := ρ.own e.id
    student := ρ.other e.student
    course := ρ.other e.course
    enrolledAt := ρ.date e.enrolledAt
    lastAccessed := e.lastAccessed.map ρ.date }

/-- A review with other names and dates. -/
def Review.rename (r : Review Ref Date) : Review Ref' Date' :=
  { r with
    id := ρ.own r.id
    course := ρ.other r.course
    student := ρ.other r.student
    createdAt := ρ.date r.createdAt }

/-- A payment with other names and dates. -/
def Payment.rename (p : Payment Ref Date) : Payment Ref' Date' :=
  { p with
    id := ρ.own p.id
    student := ρ.other p.student
    course := ρ.other p.course
    paidAt := ρ.date p.paidAt }

end

namespace Dataset.Record

/-- What a record is known by. -/
def id : (c : Collection) → Record Ref Date c → Ref
  | .categories => Category.id
  | .instructors => Instructor.id
  | .students => Student.id
  | .courses => Course.id
  | .enrollments => Enrollment.id
  | .reviews => Review.id
  | .payments => Payment.id

/-- **What a record refers to**: a record of which collection, and by what. -/
def references : (c : Collection) → Record Ref Date c → List (Collection × Ref)
  | .categories => fun _ => []
  | .instructors => fun _ => []
  | .students => fun _ => []
  | .courses => fun (c : Course Ref Date) =>
    [(.categories, c.category), (.instructors, c.instructor)]
  | .enrollments => fun (e : Enrollment Ref Date) =>
    [(.students, e.student), (.courses, e.course)]
  | .reviews => fun (r : Review Ref Date) => [(.students, r.student), (.courses, r.course)]
  | .payments => fun (p : Payment Ref Date) => [(.students, p.student), (.courses, p.course)]

/-- **A record with other names and dates.** -/
def rename (ρ : Renaming Ref Date Ref' Date') :
    (c : Collection) → Record Ref Date c → Record Ref' Date' c
  | .categories => Category.rename ρ
  | .instructors => Instructor.rename ρ
  | .students => Student.rename ρ
  | .courses => Course.rename ρ
  | .enrollments => Enrollment.rename ρ
  | .reviews => Review.rename ρ
  | .payments => Payment.rename ρ

/-- **The content of a record**: all of it but names and dates. Of a date it
says only that it is there. -/
def content (c : Collection) : Record Ref Date c → Record Unit Unit c :=
  rename .forget c

section

variable (ρ : Renaming Ref Date Ref' Date') {c : Collection} (r : Record Ref Date c)

@[simp] theorem id_rename : id c (rename ρ c r) = ρ.own (id c r) := by
  cases c <;> rfl

@[simp] theorem references_rename :
    references c (rename ρ c r) = (references c r).map fun (into, ref) => (into, ρ.other ref) := by
  cases c <;> rfl

@[simp] theorem dates_rename : dates c (rename ρ c r) = (dates c r).map ρ.date := by
  cases c with
  | enrollments =>
    show ρ.date r.enrolledAt :: (r.lastAccessed.map ρ.date).toList
      = (r.enrolledAt :: r.lastAccessed.toList).map ρ.date
    cases r.lastAccessed <;> rfl
  | _ => rfl

@[simp] theorem content_rename : content c (rename ρ c r) = content c r := by
  cases c with
  | enrollments =>
    show Enrollment.rename .forget (Enrollment.rename ρ r) = Enrollment.rename .forget r
    unfold Enrollment.rename
    dsimp only
    rw [Option.map_map]
    rfl
  | _ => rfl

end

@[simp]
theorem rename_unchanged {c : Collection} (r : Record Ref Date c) : rename .unchanged c r = r := by
  cases c with
  | enrollments =>
    show ({ r with lastAccessed := r.lastAccessed.map fun t => t } : Enrollment Ref Date) = r
    rw [Option.map_id']
    rfl
  | _ => rfl

end Dataset.Record

namespace Dataset

/-- **A dataset with other names and dates.** -/
def rename (ρ : Renaming Ref Date Ref' Date') (d : Dataset Ref Date) : Dataset Ref' Date' :=
  ofRecords fun c => (d.records c).map (Record.rename ρ c)

@[simp] theorem rename_unchanged (d : Dataset Ref Date) : d.rename .unchanged = d := by
  have hrecords : ∀ c, (d.records c).map (Record.rename .unchanged c) = d.records c := fun c =>
    (List.map_congr_left fun r _ => Record.rename_unchanged r).trans (List.map_id' _)
  rw [rename, funext hrecords]
  rfl

@[simp] theorem records_ofRecords (records : (c : Collection) → List (Record Ref Date c))
    (c : Collection) : (ofRecords records).records c = records c := by
  cases c <;> rfl

end Dataset

end Academy
