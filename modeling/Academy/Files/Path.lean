import Academy.Text.Words

/-!
# Paths

A path is a text in which slashes separate parts. How it is written
matters where it is shown; where it leads depends on its parts only, on
whether it begins with a slash, and on whether it ends with one, in which
case nothing but a directory can be meant.
-/

namespace Academy

/-- **A path**, as it is written. -/
abbrev Path := String

namespace Path

/-- The parts of a path. -/
def parts (path : Path) : List String :=
  (wordsBetween (· = '/') path.toList).map String.ofList

/-- Whether the path begins at the root. -/
def fromRoot (path : Path) : Bool :=
  path.toList.head? = some '/'

/-- Whether the path ends with a slash. -/
def slashed (path : Path) : Bool :=
  path.toList.getLast? = some '/'

/-- Where the path begins, seen from a place. -/
def start (path : Path) (current : List String) : List String :=
  if path.fromRoot then [] else current

/-- The parts of a path that has to lead to a directory if it ends with a slash. -/
def steps (path : Path) : List String :=
  path.parts ++ if path.slashed then ["."] else []

/-- The last part of a path, if it is a name. -/
def lastName? (path : Path) : Option String :=
  path.parts.getLast?.filter fun part => !(part = "." || part = "..")

/-- How many bytes a name has at most. -/
def nameLimit : Nat := 255

/-- How many bytes a path has at most. -/
def pathLimit : Nat := 4095

/-- **A file in a directory.** -/
def join (dir : Path) (name : String) : Path :=
  if dir.isEmpty || slashed dir then dir ++ name else dir ++ "/" ++ name

/-- The parts that name something: a dot counts only at the beginning of a
path that does not begin at the root. -/
def namedParts (path : Path) : List String :=
  match parts path with
  | [] => []
  | part :: rest =>
    let rest := rest.filter (· ≠ ".")
    if part = "." && fromRoot path then rest else part :: rest

/-- The path of some parts. -/
def ofParts (fromRoot : Bool) (parts : List String) : Path :=
  (if fromRoot then "/" else "") ++ "/".intercalate parts

/-- The name of what the path leads to, if it has one. -/
def fileName? (path : Path) : Option String :=
  match (namedParts path).getLast? with
  | some name => if name = "." || name = ".." then none else some name
  | none => none

/-- A reversed path without the slashes at its end, and without single dots
after them. -/
def trimEnd : List Char → List Char
  | '/' :: s => trimEnd s
  | '.' :: '/' :: s => trimEnd s
  | s => s

/-- A path up to the end of the name of what it leads to. -/
def trimmed (path : Path) : Path :=
  String.ofList (trimEnd path.toList.reverse).reverse

/-- A name as what comes before its last dot and what comes after it. A dot
at the beginning of a name does not count. -/
def splitExtension (name : String) : String × Option String :=
  let reversed := name.toList.reverse
  let extension := reversed.takeWhile (· ≠ '.')
  if reversed.length ≤ extension.length + 1 then (name, none)
  else (String.ofList (reversed.drop (extension.length + 1)).reverse,
    some (String.ofList extension.reverse))

/-- The extension of the name of what the path leads to. -/
def extension? (path : Path) : Option String :=
  (fileName? path).bind fun name => (splitExtension name).2

/-- **The path with another extension**, in place of the one that it has. What
comes after the name of what it leads to is left out. -/
def withExtension (path : Path) (extension : String) : Path :=
  match fileName? path with
  | none => path
  | some name =>
    let dropped := match (splitExtension name).2 with
      | some old => old.length + 1
      | none => 0
    let kept := (trimmed path).toList
    String.ofList (kept.take (kept.length - dropped)) ++ "." ++ extension

end Path

end Academy
