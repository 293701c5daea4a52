import Academy.Proofs.Files.Dataset
import Academy.Proofs.Records.Rereading

/-!
# What can be read can be written, and need not be readable again

The reader is more liberal than the writer. An instant is accepted in any
of three forms, with any offset, and in any year of the calendar, and
whatever has been accepted can be written. What is written has one form
only, and the years that this form has are those of four digits: another
year is written with a sign, which is no date to the reader. So there are
files that are read without a complaint and written without one, and
after that nothing reads them any more. Numbers of many digits are the
other exception, a smaller one: what is read for them may be a neighbour.

These are all the exceptions. A dataset is read as it was written, with
its dates cut off at the millisecond, exactly if it is storable, and if it
can be read at all then its years have four digits
(`Dataset.read_write_read`).
-/

namespace Academy

/-- What is read of the bytes of a collection is read record by record. -/
theorem Collection.readsAs_of_ofBytes {c : Collection}
    {rs rs' : List (Dataset.Record Identifier Instant c)}
    (h : c.codec.ofBytes (c.codec.toBytes rs) = .ok rs') :
    List.Forall₂ c.codec.ReadsAs rs rs' := by
  rw [Codec.ofBytes_toBytes_eq_ok_iff fun r _ => c.braced r] at h
  exact h.imp fun _ _ htext => c.legible.readsAs_of_ofText htext

namespace Dataset

variable {d d' : Dataset Identifier Instant} {dir source : Path} {machine after : Machine}
  {report : Written → StateM Machine Unit}

/-- The files of a directory hold a dataset as it is written. -/
def HeldIn (d : Dataset Identifier Instant) (dir : Path) (machine : Machine) : Prop :=
  ∀ c : Collection, machine.files.read (c.pathIn dir) = .ok (c.codec.toBytes (d.records c))

theorem HeldIn.readsAs (hd : d.HeldIn dir machine)
    (h : machine.Yields (Dataset.read dir) d' after) (c : Collection) :
    List.Forall₂ c.codec.ReadsAs (d.records c) (d'.records c) := by
  obtain ⟨bytes, hread, hrecords⟩ := (of_yields_read h).2 c
  obtain rfl := Except.ok.inj ((hd c).symm.trans hread)
  exact Collection.readsAs_of_ofBytes hrecords

/-- **A dataset that is read has dates in years of four digits only.** -/
theorem HeldIn.fourDigitYears (hd : d.HeldIn dir machine)
    (h : machine.Yields (Dataset.read dir) d' after) : d.FourDigitYears := by
  intro c
  have hread := (hd.readsAs h c).imp fun r r' hr =>
    And.intro (Collection.fourDigitYear_of_readsAs hr) hr
  exact ((List.forall₂_and_left _ _).mp hread).1

/-- **A dataset is read as it was written exactly if it is storable.** -/
theorem HeldIn.yields_read_iff (hd : d.HeldIn dir machine) :
    machine.Yields (Dataset.read dir) (d.mapDates Instant.truncate) machine ↔ d.Storable := by
  have hrecords : ∀ c, (d.mapDates Instant.truncate).records c
      = (d.records c).map (Record.mapDates Instant.truncate c) := by
    intro c
    cases c <;> rfl
  refine ⟨fun h c => ?_, fun hstorable => ?_⟩
  · have hread := hd.readsAs h c
    rw [hrecords, List.forall₂_map_right_iff, List.forall₂_same] at hread
    exact fun r hr => Collection.readsAs_iff.mp (hread r hr)
  · refine yields_read fun c => ⟨_, hd c, ?_⟩
    rw [hrecords]
    exact c.ofBytes_toBytes (hstorable c)

/-! ## Dates in other forms -/

/-- A student, by when he registered. -/
def student (registeredAt : Instant) : Student Identifier Instant :=
  ⟨⟨0x65a1f0c2e4b0a1b2c3d4e5f6⟩, "Ada Lovelace", "ada.lovelace1@example.com", "UK",
    registeredAt, .active, 28⟩

/-- The record of a student, with any value as the date. -/
def studentRecord (date : Json) : Json :=
  .object [("_id", .object [("$oid", .string "65a1f0c2e4b0a1b2c3d4e5f6")]),
    ("name", .string "Ada Lovelace"), ("email", .string "ada.lovelace1@example.com"),
    ("country", .string "UK"), ("registered_at", .object [("$date", date)]),
    ("status", .string "active"), ("age", .nat 28)]

/-- A dataset of students alone. -/
def ofStudents (students : List (Student Identifier Instant)) : Dataset Identifier Instant where
  categories := []
  instructors := []
  students
  courses := []
  enrollments := []
  reviews := []
  payments := []

/-- The bytes of the files of such a dataset. -/
def studentFiles (dates : List Json) : Collection → List UInt8
  | .students =>
    ((dates.map studentRecord).map fun j => utf8Bytes j.text).flatMap (· ++ [0x0A])
  | _ => []

/-- A date in each of the forms. -/
def dateForms : List Json :=
  [.string "2024-01-01T08:00:00.1239+08:00", .nat 1704067200123,
    .object [("$numberLong", .string "-1")]]

/-- The first millisecond of the year 10000. -/
def lateDates : List Json :=
  [.nat 253402300800000]

/-- A machine with a directory of students whose dates are in all the forms there
are, a directory of one who registers in a year of five digits, and an empty
directory. -/
def registry : Machine where
  files := { entries := (["forms"], .directory) :: (["late"], .directory) :: (["out"], .directory) ::
    Collection.all.flatMap fun c =>
      [(["forms", c.fileName], .file (studentFiles dateForms c)),
        (["late", c.fileName], .file (studentFiles lateDates c))] }
  environment := []
  now := ⟨1700000000, 0, .inl (by decide)⟩
  identifiers := ⟨7, 0, fun _ => 1700000000⟩
  freshWords := .ofSeed 42
  printed := ""

theorem registry_canHold (d : Dataset Identifier Instant) : registry.files.CanHold "out" d := by
  have hplace : ∀ c : Collection,
      registry.files.FilePlace (c.pathIn "out") ["out", c.fileName] := by
    intro c
    cases c <;> exact ⟨⟨["out"], by decide +kernel⟩, by decide +kernel, by decide +kernel,
      by decide +kernel⟩
  exact FileTree.canHold_of_filePlaces (by decide +kernel) hplace
    (fun c c' h => Collection.fileName_inj (List.cons.inj (List.cons.inj h).2).1)
    (fun _ _ => rfl) d

/-- What the record of a student is read as. -/
theorem ofText_studentRecord {date : Json} (hdate : date.Readable) {s : Student Identifier Instant}
    (h : (Student.codec.decode Reading.nestingLimit (studentRecord date).reading).toOption
      = some s) : Student.codec.ofText (studentRecord date).text = .ok s := by
  have hreadable : (studentRecord date).Readable :=
    ⟨⟨trivial, trivial⟩, trivial, trivial, trivial, ⟨hdate, trivial⟩, trivial,
      Json.nat_readable (by decide), trivial⟩
  rw [Codec.ofText_eq_ok_iff, Json.readingOfText_text hreadable]
  refine ⟨?_, rfl⟩
  cases hread : Student.codec.decode Reading.nestingLimit (studentRecord date).reading with
  | error e =>
    rw [hread] at h
    exact nomatch h
  | ok found =>
    rw [hread] at h
    rw [Option.some.inj h]

/-- A directory of students is read if its files are where they should be. -/
theorem registry_yields_read {dates : List Json} {students : List (Student Identifier Instant)}
    (hplace : ∀ c ∈ Collection.all, (c.pathIn source).slashed = false ∧
      registry.files.locate (c.pathIn source) = .ok [source, c.fileName])
    (hfile : ∀ c : Collection,
      registry.files.entry? [source, c.fileName] = some (.file (studentFiles dates c)))
    (hstudents : List.Forall₂ (fun date s => Student.codec.ofText (studentRecord date).text = .ok s)
      dates students) :
    registry.Yields (Dataset.read source) (ofStudents students) registry := by
  refine yields_read fun c => ⟨studentFiles dates c, ?_, ?_⟩
  · obtain ⟨hslashed, hlocated⟩ := hplace c (by cases c <;> decide)
    rw [FileTree.read_eq hlocated hslashed, hfile]
  cases c with
  | students =>
    have hobjects : ∀ j ∈ dates.map studentRecord, ∃ members, j = .object members :=
      List.forall_mem_map.mpr fun date _ => ⟨_, rfl⟩
    refine (Codec.ofBytes_eq_ok_iff hobjects).mpr ?_
    rw [List.forall₂_map_left_iff]
    exact hstudents
  | _ => rfl

/-! ## Reading again -/

/-- **What the reader accepts and the writer keeps readable.** Take any directory
whose seven files are read, in whatever form their dates are, and any
directory that can hold what has been read. Reading changes nothing, and the
dataset is written. Reading it again gives the same dataset, with its dates
cut off at the millisecond, exactly if the years of its dates have four
digits and its numbers survive being written in decimal; and where a year
has more, or is before year 0, it is not read again at all. -/
theorem read_write_read (hreport : KeepsFiles report)
    (hread : machine.Yields (Dataset.read source) d after) (hdir : machine.files.CanHold dir d) :
    after = machine ∧
      ∃ written, machine.Yields (d.write dir report) (Collection.all.map (d.written dir)) written ∧
        (written.Yields (Dataset.read dir) (d.mapDates Instant.truncate) written ↔ d.Storable) ∧
        (¬ d.FourDigitYears → ∀ d' reread, ¬ written.Yields (Dataset.read dir) d' reread) := by
  obtain ⟨written, hwritten, hfiles⟩ := yields_write hreport hdir
  have hd : d.HeldIn dir written := hfiles
  exact ⟨(of_yields_read hread).1, written, hwritten, hd.yields_read_iff,
    fun hyears d' reread h => hyears (hd.fourDigitYears h)⟩

/-- Whatever the form of a date is, it is read again. -/
theorem read_write_read_forms :
    let d := ofStudents [student ⟨1704067200, 123900000, .inl (by decide)⟩,
      student ⟨1704067200, 123000000, .inl (by decide)⟩,
      student ⟨-1, 999000000, .inl (by decide)⟩]
    registry.Yields (Dataset.read "forms") d registry ∧ registry.files.CanHold "out" d ∧
      d.Storable ∧ ∃ written,
        registry.Yields (d.write "out" fun _ => pure ()) (Collection.all.map (d.written "out"))
          written ∧
        written.Yields (Dataset.read "out") (d.mapDates Instant.truncate) written := by
  intro d
  have hforms : ∀ c : Collection, registry.files.entry? ["forms", c.fileName]
      = some (.file (studentFiles dateForms c)) := by
    intro c
    cases c <;> rfl
  have hread : registry.Yields (Dataset.read "forms") d registry := by
    refine registry_yields_read (by decide +kernel) hforms ?_
    unfold dateForms
    refine .cons (ofText_studentRecord ?_ ?_) (.cons (ofText_studentRecord ?_ ?_)
      (.cons (ofText_studentRecord ?_ ?_) .nil))
    · exact trivial
    · decide +kernel
    · exact Json.nat_readable (by decide)
    · decide +kernel
    · exact ⟨trivial, trivial⟩
    · decide +kernel
  have hstorable : d.Storable := by decide +kernel
  have hquiet : KeepsFiles fun _ => pure () := fun _ _ => rfl
  obtain ⟨-, written, hwritten, hreread, -⟩ := read_write_read hquiet hread (registry_canHold d)
  exact ⟨hread, registry_canHold d, hstorable, written, hwritten, hreread.mpr hstorable⟩

/-- **A file that is accepted and is not read again.** The number of milliseconds
up to the year 10000 is a date, and no date when it has been written. -/
theorem read_write_unreadable :
    let d := ofStudents [student ⟨253402300800, 0, .inl (by decide)⟩]
    registry.Yields (Dataset.read "late") d registry ∧ registry.files.CanHold "out" d ∧
      ∃ written,
        registry.Yields (d.write "out" fun _ => pure ()) (Collection.all.map (d.written "out"))
          written ∧
        ∀ d' reread, ¬ written.Yields (Dataset.read "out") d' reread := by
  intro d
  have hlate : ∀ c : Collection, registry.files.entry? ["late", c.fileName]
      = some (.file (studentFiles lateDates c)) := by
    intro c
    cases c <;> rfl
  have hread : registry.Yields (Dataset.read "late") d registry := by
    refine registry_yields_read (by decide +kernel) hlate ?_
    unfold lateDates
    refine .cons (ofText_studentRecord ?_ ?_) .nil
    · exact Json.nat_readable (by decide)
    · decide +kernel
  have hyears : ¬ d.FourDigitYears := by decide +kernel
  have hquiet : KeepsFiles fun _ => pure () := fun _ _ => rfl
  obtain ⟨written, hwritten, hfiles⟩ := yields_write hquiet (registry_canHold d)
  have hd : d.HeldIn "out" written := hfiles
  exact ⟨hread, registry_canHold d, written, hwritten,
    fun d' reread h => hyears (hd.fourDigitYears h)⟩

end Dataset

end Academy
