import Academy.Files.Path

/-!
# Trees of files

A tree has entries at places. A place is the list of names that lead to
it from the root, which is always a directory. A path leads to a place,
part by part, through directories that have to be there; a part of two
dots leads back, and the root leads back to itself.

An entry is a directory, a file with its bytes, or a link, which leads on
to where another path leads from the directory in which it is. A file
with several names is a file at one of them, and a link to it at each of
the others.

How much can be kept at a place is not for the tree to say: a file may
fill what it is kept on after any number of bytes, or be closed to those
who would write it. That is taken as a part of the tree (`allowance`), and
it may depend on all that is kept at the other places. A file to which
more is added than can be kept has as much as can.

Not every text can be a path, and not every part of one a name. A path
that holds the character zero or is too long leads nowhere from the
beginning; a name that is too long is only found out where it is looked
for, which takes a directory.
-/

namespace Academy

/-- **Why a file cannot be used.** -/
inductive FileFault
  /-- There is nothing at the place, or on the way to it. -/
  | notFound
  /-- There is a directory at the place. -/
  | isDirectory
  /-- There is no directory where there has to be one. -/
  | notDirectory
  /-- There is something at the place already. -/
  | alreadyExists
  /-- Nothing more can be kept. -/
  | storageFull
  /-- The bytes are not those of a text. -/
  | invalidData
  /-- The path is none: the character zero stands in it. -/
  | invalidPath
  /-- The path or a name in it is too long. -/
  | tooLong
  /-- One link leads on to the next too often. -/
  | tooManyLinks
  /-- The system gives another reason. -/
  | other
deriving DecidableEq, Repr

/-- What is wrong with a path wherever it leads. -/
def Path.fault? (path : Path) : Option FileFault :=
  if path.toList.contains (Char.ofNat 0) then some .invalidPath
  else if pathLimit < path.utf8ByteSize then some .tooLong
  else if path.isEmpty then some .notFound
  else none

/-- **What is at a place.** -/
inductive Entry
  | directory
  | file (bytes : List UInt8)
  | link (target : Path)
deriving DecidableEq

/-- The names that lead from the root to somewhere. -/
abbrev Place := List String

/-! ## What can be kept -/

/-- **What can be kept at a place.** -/
inductive Allowance
  /-- A file of any size. -/
  | all
  /-- A file of so many bytes; the fault is that of one byte more. -/
  | upTo (size : Nat) (fault : FileFault)
  /-- Nothing: no file is opened to be written there, and nothing is made. -/
  | nothing (fault : FileFault)

/-- Bytes that could not be written, and why not. -/
structure Unwritten where
  /-- The bytes. -/
  rest : List UInt8
  /-- The reason. -/
  fault : FileFault

namespace Allowance

/-- Why a file of so many bytes cannot be kept. -/
def fault? : Allowance → Nat → Option FileFault
  | all, _ => none
  | upTo size fault, length => if length ≤ size then none else some fault
  | nothing fault, _ => some fault

/-- How many bytes a file has when no more can be added to it. -/
def size : Allowance → Nat
  | upTo size _ => size
  | _ => 0

/-- **Adds bytes to those of a file**, as many as can be kept. -/
def keep (allowance : Allowance) (kept bytes : List UInt8) :
    List UInt8 × Except Unwritten Unit :=
  match allowance.fault? (kept.length + bytes.length) with
  | none => (kept ++ bytes, .ok ())
  | some fault =>
    let room := allowance.size - kept.length
    (kept ++ bytes.take room, .error ⟨bytes.drop room, fault⟩)

end Allowance

/-- **A tree of files.** -/
structure FileTree where
  /-- The entries with their places; the first of a place counts. -/
  entries : List (Place × Entry) := []
  /-- Where paths begin that do not begin at the root. -/
  current : Place := []
  /-- What can be kept at a place, besides the entries of the others. -/
  allowance : List (Place × Entry) → Place → Allowance := fun _ _ => .all

namespace FileTree

/-- **What is at a place**, if there is something. -/
def entry? (tree : FileTree) (place : Place) : Option Entry :=
  if place = [] then some .directory else tree.entries.lookup place

/-- Where the link at a place leads, if there is one. -/
def link? (tree : FileTree) (place : Place) : Option Path :=
  match tree.entry? place with
  | some (.link target) => some target
  | _ => none

/-- The entries of the other places. -/
def others (tree : FileTree) (place : Place) : List (Place × Entry) :=
  tree.entries.filter (·.1 ≠ place)

/-- What can be kept at a place as the tree is. -/
def allowed (tree : FileTree) (place : Place) : Allowance :=
  tree.allowance (tree.others place) place

/-- The tree with an entry put at a place. -/
def put (tree : FileTree) (place : Place) (entry : Entry) : FileTree :=
  { tree with entries := (place, entry) :: tree.others place }

/-! ## Where a path leads -/

/-- How many links are followed at most on one way. -/
def linkLimit : Nat := 40

/-- Goes on from a place, which has to be a directory, to its part of the
given name. -/
def enter (tree : FileTree) (place : Place) (part : String) : Except FileFault Place :=
  match tree.entry? place with
  | none => .error .notFound
  | some .directory =>
    if Path.nameLimit < part.utf8ByteSize then .error .tooLong
    else if part = "." then .ok place
    else if part = ".." then .ok place.dropLast
    else .ok (place ++ [part])
  | some _ => .error .notDirectory

/-- Goes on by some parts as far as the first link. A link is given as the path
that it stands for and the parts after it, with the directory in which it is. -/
def goOn (tree : FileTree) :
    Place → List String → Except FileFault (Place × Option (Path × List String))
  | place, [] => .ok (place, none)
  | place, part :: parts =>
    match tree.enter place part with
    | .error fault => .error fault
    | .ok next =>
      match tree.link? next with
      | some target => .ok (place, some (target, parts))
      | none => tree.goOn next parts

/-- Goes on by some parts in so many stretches, each of which ends with a link.
How many are left is given with the place. -/
def walk (tree : FileTree) : (stretches : Nat) → Place → List String →
    Except FileFault (Nat × Place)
  | 0, _, _ => .error .tooManyLinks
  | stretches + 1, place, parts =>
    match tree.goOn place parts with
    | .error fault => .error fault
    | .ok (found, none) => .ok (stretches + 1, found)
    | .ok (found, some (target, rest)) =>
      tree.walk stretches (target.start found) (target.steps ++ rest)

/-- Goes on by some parts from where a path begins. -/
def follow (tree : FileTree) (path : Path) (parts : List String) : Except FileFault Place :=
  match path.fault? with
  | some fault => .error fault
  | none => (tree.walk (linkLimit + 1) (path.start tree.current) parts).map (·.2)

/-- **The place that a path leads to.** -/
def locate (tree : FileTree) (path : Path) : Except FileFault Place :=
  tree.follow path path.parts

/-- The directory in which the last part of a path is looked for. -/
def locateParent (tree : FileTree) (path : Path) : Except FileFault Place :=
  tree.follow path (path.parts.dropLast ++ ["."])

/-- The place of a path that may be that of a file: there is none where the
path does not end with a name. -/
def locateFile (tree : FileTree) (path : Path) : Except FileFault (Option Place) := do
  let place ← tree.locate path
  pure (path.lastName?.map fun _ => place)

/-- The place of a path that may be that of a new directory, which a link at the
end does not lead away from. -/
def locateNew (tree : FileTree) (path : Path) : Except FileFault (Option Place) := do
  let above ← tree.locateParent path
  match path.lastName? with
  | none => pure none
  | some name => some <$> tree.enter above name

/-! ## Reading and writing -/

/-- **The bytes of a file.** -/
def read (tree : FileTree) (path : Path) : Except FileFault (List UInt8) := do
  let place ← tree.locate path
  match tree.entry? place with
  | none => throw .notFound
  | some .directory => throw .isDirectory
  | some (.file bytes) => if path.slashed then throw .notDirectory else pure bytes
  | some (.link _) => throw .tooManyLinks

/-- Whether there is a file. -/
def isFile (tree : FileTree) (path : Path) : Bool :=
  match tree.locate path with
  | .ok place =>
    match tree.entry? place with
    | some (.file _) => !path.slashed
    | _ => false
  | .error _ => false

/-- Whether there is a directory. -/
def isDirectory (tree : FileTree) (path : Path) : Bool :=
  match tree.locate path with
  | .ok place => tree.entry? place = some .directory
  | .error _ => false

/-- **Opens a file to write it anew**: it is there then, and empty. That a path
ends with a slash is noticed before its last part is looked for. -/
def create (tree : FileTree) (path : Path) : Except FileFault FileTree := do
  let _ ← tree.locateParent path
  if path.slashed then throw .isDirectory
  match ← tree.locateFile path with
  | none => throw .isDirectory
  | some place =>
    match tree.entry? place with
    | some .directory => throw .isDirectory
    | some (.link _) => throw .tooManyLinks
    | _ =>
      match (tree.allowed place).fault? 0 with
      | some fault => throw fault
      | none => pure (tree.put place (.file []))

/-- **Adds bytes to a file**, as many as can be kept. -/
def append (tree : FileTree) (path : Path) (bytes : List UInt8) :
    FileTree × Except Unwritten Unit :=
  match tree.locate path with
  | .error fault => (tree, .error ⟨bytes, fault⟩)
  | .ok place =>
    match tree.entry? place with
    | some (.file kept) =>
      let (now, outcome) := (tree.allowed place).keep kept bytes
      (tree.put place (.file now), outcome)
    | _ => (tree, .error ⟨bytes, .notFound⟩)

/-- **Makes a file of some bytes**, in place of the one that was there. -/
def write (tree : FileTree) (path : Path) (bytes : List UInt8) : Except FileFault FileTree := do
  match (← tree.create path).append path bytes with
  | (written, .ok ()) => pure written
  | (_, .error unwritten) => throw unwritten.fault

/-! ## Directories -/

/-- Makes a directory in one that is there. -/
def createDirectory (tree : FileTree) (path : Path) : Except FileFault FileTree := do
  match ← tree.locateNew path with
  | none => throw .alreadyExists
  | some place =>
    match tree.entry? place with
    | some _ => throw .alreadyExists
    | none =>
      match (tree.allowed place).fault? 0 with
      | some fault => throw fault
      | none => pure (tree.put place .directory)

/-- What comes of an attempt at a directory: one that is there already is
as good as a new one. -/
def settle (tree : FileTree) (path : Path) :
    Except FileFault FileTree → FileTree × Except FileFault Unit
  | .ok made => (made, .ok ())
  | .error fault => (tree, if tree.isDirectory path then .ok () else .error fault)

/-- Makes a directory of the given parts and, where it cannot be made for
lack of them, those that lead to it. The tree is given as it is left, also
where this fails. -/
def createParents (fromRoot : Bool) (path : Path) (parts : List String) (tree : FileTree) :
    FileTree × Except FileFault Unit :=
  if path.isEmpty then (tree, .ok ())
  else
    match tree.createDirectory path, parts with
    | .error .notFound, part :: rest =>
      let above := (part :: rest).dropLast
      match createParents fromRoot (Path.ofParts fromRoot above) above tree with
      | (tree, .error fault) => (tree, .error fault)
      | (tree, .ok ()) => tree.settle path (tree.createDirectory path)
    | outcome, _ => tree.settle path outcome
termination_by parts.length

/-- **Makes a directory and those that lead to it**, as far as they are not
there. -/
def createDirectories (tree : FileTree) (path : Path) : FileTree × Except FileFault Unit :=
  createParents path.fromRoot path path.namedParts tree

end FileTree

end Academy
