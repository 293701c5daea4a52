import Academy.Files.Buffer

/-!
# Datasets in files

A dataset is kept in a directory, each collection in a file of its own.
The files are written in the order of the collections, and what has been
written is reported file by file; where one of them fails, those before
it stay, those after it are left as they are, and it has itself what could
be written of it. They are read in the same order.
-/

namespace Academy

/-- The path of a collection's file in a directory. -/
def Collection.pathIn (c : Collection) (dir : Path) : Path :=
  dir.join c.fileName

/-- **A collection that has been written.** -/
structure Written where
  /-- The collection. -/
  collection : Collection
  /-- Where it is. -/
  path : Path
  /-- How many records it has. -/
  count : Nat
deriving DecidableEq, Repr

/-- What comes of an attempt at a file. -/
def fileOutcome {m : Type → Type} [Monad m] {α : Type} (path : Path)
    (outcome : m (Except FileFault α)) : ExceptT Failure m α := do
  match ← outcome with
  | .ok a => pure a
  | .error fault => throw (.file path fault)

/-- The failure of a line. -/
def LineFault.failure (path : Path) (line : Nat) : LineFault → Failure
  | .notText => .file path .invalidData
  | .record error => .record path line error

variable {m : Type → Type} [Monad m] [Host m]

/-- **Writes records to a file** and gives their number. -/
def Codec.writeTo {α : Type} (c : Codec α) (path : Path) (records : List α) :
    ExceptT Failure m Nat := do
  fileOutcome path (Host.createFile path)
  (Buffer.chunks (c.pieces records)).forM (Chunk.writeTo path)
  pure records.length

/-- **Reads the records of a file.** -/
def Codec.readFrom {α : Type} (c : Codec α) (path : Path) : ExceptT Failure m (List α) := do
  let bytes ← fileOutcome path (Host.readFile path)
  match c.ofBytes bytes with
  | .ok records => pure records
  | .error (line, fault) => throw (fault.failure path line)

namespace Dataset

/-- Writes a collection and reports it. -/
def writeCollection (d : Dataset Identifier Instant) (dir : Path) (report : Written → m Unit)
    (c : Collection) : ExceptT Failure m Written := do
  let count ← c.codec.writeTo (c.pathIn dir) (d.records c)
  let written : Written := ⟨c, c.pathIn dir, count⟩
  ExceptT.lift (report written)
  pure written

/-- **Writes a dataset to a directory**, which is made if it is not there. -/
def write (d : Dataset Identifier Instant) (dir : Path) (report : Written → m Unit) :
    ExceptT Failure m (List Written) := do
  fileOutcome dir (Host.createDirectories dir)
  Collection.all.mapM (writeCollection d dir report)

/-- **Reads the dataset of a directory.** -/
def read (dir : Path) : ExceptT Failure m (Dataset Identifier Instant) := do
  let categories ← Category.codec.readFrom (Collection.categories.pathIn dir)
  let instructors ← Instructor.codec.readFrom (Collection.instructors.pathIn dir)
  let students ← Student.codec.readFrom (Collection.students.pathIn dir)
  let courses ← Course.codec.readFrom (Collection.courses.pathIn dir)
  let enrollments ← Enrollment.codec.readFrom (Collection.enrollments.pathIn dir)
  let reviews ← Review.codec.readFrom (Collection.reviews.pathIn dir)
  let payments ← Payment.codec.readFrom (Collection.payments.pathIn dir)
  pure { categories, instructors, students, courses, enrollments, reviews, payments }

end Dataset

end Academy
