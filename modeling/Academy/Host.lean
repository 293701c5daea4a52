import Academy.Calendar.Instant
import Academy.Files.Tree
import Academy.Identifier
import Academy.Random.WordStream
import Academy.Settings.Environment

/-!
# The host

All that a run needs from outside: files, a place to print, the
environment, a clock, identifiers, and words that nobody can foresee. A
run is written for any host. One is the system that the program runs on,
and one is a `Machine`, which is a value and can be reasoned about: it
holds a tree of files, an environment, a clock that stands still, a source
of identifiers and of words, and all that has been printed.
-/

namespace Academy

/-- **What a run can ask for.** -/
class Host (m : Type → Type) where
  /-- The variables of the environment. -/
  environment : m Environment
  /-- What the clock shows. -/
  now : m Instant
  /-- Words that nobody can foresee. -/
  freshWords : m WordStream
  /-- Where the next identifiers come from. -/
  identifiers : m Identifier.Source
  /-- So many identifiers have been used. -/
  spend : (uses : Nat) → m Unit
  /-- Makes a directory and those that lead to it. -/
  createDirectories : Path → m (Except FileFault Unit)
  /-- Opens a file to write it anew. -/
  createFile : Path → m (Except FileFault Unit)
  /-- Adds bytes to a file. -/
  appendFile : Path → List UInt8 → m (Except Unwritten Unit)
  /-- The bytes of a file. -/
  readFile : Path → m (Except FileFault (List UInt8))
  /-- Whether there is a file. -/
  isFile : Path → m Bool
  /-- Prints a text. -/
  print : String → m Unit

/-- A host beside which something is kept. -/
instance {m : Type → Type} [Monad m] [Host m] {σ : Type} : Host (StateT σ m) where
  environment := StateT.lift Host.environment
  now := StateT.lift Host.now
  freshWords := StateT.lift Host.freshWords
  identifiers := StateT.lift Host.identifiers
  spend uses := StateT.lift (Host.spend uses)
  createDirectories path := StateT.lift (Host.createDirectories path)
  createFile path := StateT.lift (Host.createFile path)
  appendFile path bytes := StateT.lift (Host.appendFile path bytes)
  readFile path := StateT.lift (Host.readFile path)
  isFile path := StateT.lift (Host.isFile path)
  print text := StateT.lift (Host.print text)

/-! ## A host as a value -/

/-- **A host as a value.** -/
structure Machine where
  /-- The files. -/
  files : FileTree
  /-- The environment. -/
  environment : Environment
  /-- What the clock shows. -/
  now : Instant
  /-- Where the next identifiers come from. -/
  identifiers : Identifier.Source
  /-- Words that nobody can foresee. -/
  freshWords : WordStream
  /-- What has been printed. -/
  printed : String

namespace Machine

/-- Changes the files. -/
def changeFiles {α : Type} (change : FileTree → FileTree × α) : StateM Machine α :=
  modifyGet fun machine =>
    let (files, a) := change machine.files
    (a, { machine with files })

/-- What comes of an attempt to change files, which are as they were where it fails. -/
def settled (files : FileTree) :
    Except FileFault FileTree → FileTree × Except FileFault Unit
  | .ok changed => (changed, .ok ())
  | .error fault => (files, .error fault)

instance : Host (StateM Machine) where
  environment := return (← get).environment
  now := return (← get).now
  freshWords := return (← get).freshWords
  identifiers := return (← get).identifiers
  spend uses := modify fun machine =>
    { machine with identifiers := machine.identifiers.after uses }
  createDirectories path := changeFiles (·.createDirectories path)
  createFile path := changeFiles fun files => settled files (files.create path)
  appendFile path bytes := changeFiles (·.append path bytes)
  readFile path := return (← get).files.read path
  isFile path := return (← get).files.isFile path
  print text := modify fun machine => { machine with printed := machine.printed ++ text }

end Machine

end Academy
