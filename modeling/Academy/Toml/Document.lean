import Academy.Toml.Scalars
import Academy.Toml.Strings

/-!
# TOML documents

A document is a sequence of lines that hold a header or a member. A
header names the table that the members after it belong to, and the
members before the first header belong to the root. `Toml.ofText?` reads
a document, and refuses one in which something is said twice.
-/

namespace Academy.Toml

/-! ## Values -/

/-- How deep arrays and tables between braces may be nested. -/
def nestingLimit : Nat := 80

mutual

/-- Reads a value in which arrays and tables are nested at most `room` deep;
`fuel` bounds how many values are begun within it. -/
def readValue (fuel room : Nat) (s : List Char) : Option (Toml × List Char) :=
  match fuel, room, s with
  | 0, _, _ => none
  | _ + 1, 0, '[' :: _ => none
  | _ + 1, 0, '{' :: _ => none
  | fuel + 1, room + 1, '[' :: s =>
    (readItems fuel room (skipLines false s)).map fun (items, rest) => (.array items, rest)
  | fuel + 1, room + 1, '{' :: s =>
    (readMembers fuel room [] (skipLines false s)).map fun (members, rest) =>
      (.table .inline members, rest)
  | _ + 1, _, s =>
    match s with
    | '"' :: _ | '\'' :: _ =>
      (readString? s).map fun (text, rest) => (.string (String.ofList text), rest)
    | s =>
      let (word, rest) := splitWord s
      (ofWord? word).map fun value => (value, rest)

/-- Reads the items of an array up to its bracket. A comma may follow the
last of them. -/
def readItems (fuel room : Nat) (s : List Char) : Option (List Toml × List Char) :=
  match fuel, s with
  | 0, _ => none
  | _ + 1, ']' :: rest => some ([], rest)
  | fuel + 1, s =>
    match readValue fuel room s with
    | none => none
    | some (item, rest) =>
      match skipLines false rest with
      | ',' :: rest =>
        (readItems fuel room (skipLines false rest)).map fun (items, rest) => (item :: items, rest)
      | ']' :: rest => some ([item], rest)
      | _ => none

/-- Reads the members of a table between braces, up to its brace, after some
of them. A comma may follow the last of them. -/
def readMembers (fuel room : Nat) (members : TomlMembers) (s : List Char) :
    Option (TomlMembers × List Char) :=
  match fuel, s with
  | 0, _ => none
  | _ + 1, '}' :: rest => some (members, rest)
  | fuel + 1, s =>
    match readMember fuel room members s with
    | none => none
    | some (members, rest) =>
      match skipLines false rest with
      | ',' :: rest => readMembers fuel room members (skipLines false rest)
      | '}' :: rest => some (members, rest)
      | _ => none

/-- Reads a member and adds it. Lines may end before and after the sign. -/
def readMember (fuel room : Nat) (members : TomlMembers) (s : List Char) :
    Option (TomlMembers × List Char) :=
  match fuel with
  | 0 => none
  | fuel + 1 => do
    let (path, rest) ← readKey? s
    match skipLines false rest with
    | '=' :: rest =>
      let (value, rest) ← readValue fuel room (skipLines false rest)
      let members ← assign (path.getLastD "") value path.dropLast members
      pure (members, rest)
    | _ => none

end

/-! ## Lines -/

/-- **A document as far as it has been read.** -/
structure Draft where
  /-- The members of the root. -/
  root : TomlMembers
  /-- The path of the table that members belong to. -/
  heading : List String

/-- Reads the path of a header up to its bracket. -/
def readHeader? (s : List Char) : Option (List String × List Char) := do
  let (path, rest) ← readKey? s
  match rest with
  | ']' :: rest => pure (path, rest)
  | _ => none

/-- Reads a header or a member, where there is one. -/
def readStatement? (draft : Draft) (s : List Char) : Option (Draft × List Char) :=
  match s with
  | '[' :: '[' :: s => do
    let (path, rest) ← readHeader? s
    match rest with
    | ']' :: rest =>
      let root ← within (openTables (path.getLastD "")) path.dropLast draft.root
      pure (⟨root, path⟩, rest)
    | _ => none
  | '[' :: s => do
    let (path, rest) ← readHeader? s
    let root ← within (openTable (path.getLastD "")) path.dropLast draft.root
    pure (⟨root, path⟩, rest)
  | s => do
    let (path, rest) ← readKey? s
    match rest with
    | '=' :: rest =>
      let (value, rest) ← readValue (s.length + 1) nestingLimit (skipLineBlanks rest)
      let root ←
        within (assign (path.getLastD "") value path.dropLast) draft.heading draft.root
      pure (⟨root, draft.heading⟩, rest)
    | _ => none

/-- Reads the statements of a document, of which there are at most `fuel`. -/
def readStatements? : (fuel : Nat) → Draft → List Char → Option TomlMembers
  | 0, _, _ => none
  | fuel + 1, draft, s =>
    match skipLines false s with
    | [] => some draft.root
    | s => do
      let (draft, rest) ← readStatement? draft s
      let rest ← endLine? (skipComment (skipLineBlanks rest))
      readStatements? fuel draft rest

/-- A text without a byte order mark at its beginning. -/
def withoutMark : List Char → List Char
  | c :: s => if c = Char.ofNat 0xFEFF then s else c :: s
  | [] => []

/-- **The members of a document.** -/
def ofText? (s : List Char) : Option TomlMembers :=
  readStatements? (s.length + 1) ⟨[], []⟩ (withoutMark s)

end Academy.Toml
