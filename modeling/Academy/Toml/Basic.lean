import Academy.Binary64.Basic

/-!
# TOML values

The values that a TOML document holds. A table remembers how it came to
be there, since that decides what may still be added to it: a table that
has been written out is finished, one that is only on the way to another
table can still get a header or be added to by dotted keys, and one that
dotted keys have added to can only be added to by more of them.
-/

namespace Academy

/-- **How a table came to be there.** -/
inductive TableOrigin
  /-- It is written between braces. -/
  | inline
  /-- It has a header. -/
  | header
  /-- It is on the way to a table with a header. -/
  | onTheWay
  /-- A dotted key has named it. -/
  | dotted
deriving DecidableEq, Repr

/-- **A TOML value.** -/
inductive Toml
  | string (s : String)
  | integer (n : Int)
  | real (x : Binary64)
  | bool (b : Bool)
  /-- A date, a time or both, by its text. -/
  | moment (text : String)
  | array (items : List Toml)
  | table (origin : TableOrigin) (members : List (String × Toml))
  /-- Tables under one header, by their members. -/
  | tableList (tables : List (List (String × Toml)))

/-- The members of a table. -/
abbrev TomlMembers := List (String × Toml)

namespace Toml

/-- Puts a value in the place of a member's. -/
def replace (key : String) (value : Toml) : TomlMembers → TomlMembers
  | [] => []
  | (k, v) :: members =>
    if k = key then (k, value) :: members else (k, v) :: replace key value members

/-- Changes the last of some tables. -/
def onLast (change : TomlMembers → Option TomlMembers) :
    List TomlMembers → Option (List TomlMembers)
  | [] => none
  | [members] => (change members).map ([·])
  | members :: tables => (onLast change tables).map (members :: ·)

/-- **Adds a member by its dotted key**, which is the names of the tables on
the way and the name in the last one. The tables are made where they are
missing; those that are there must not be written out, and the last one
is named by dotted keys from then on. Of tables under one header, which
are written out, it is the last that a key can lead through. -/
def assign (key : String) (value : Toml) : (path : List String) → TomlMembers → Option TomlMembers
  | [], members =>
    if (members.lookup key).isSome then none else some (members ++ [(key, value)])
  | k :: path, members =>
    match members.lookup k with
    | none => (assign key value path []).map fun inner => members ++ [(k, .table .dotted inner)]
    | some (.table .dotted inner) =>
      (assign key value path inner).map fun inner => replace k (.table .dotted inner) members
    | some (.table .onTheWay inner) =>
      (assign key value path inner).map fun inner =>
        replace k (.table (if path.isEmpty then .dotted else .onTheWay) inner) members
    | some (.tableList tables) =>
      if path.isEmpty then none
      else (onLast (assign key value path) tables).map fun tables =>
        replace k (.tableList tables) members
    | some _ => none

/-- **Changes the table at a path**, as headers name it: of tables under one
header it is the last. The tables on the way are made where they are
missing, and none of them can be written between braces. -/
def within (change : TomlMembers → Option TomlMembers) :
    (path : List String) → TomlMembers → Option TomlMembers
  | [], members => change members
  | k :: path, members =>
    match members.lookup k with
    | none => (within change path []).map fun inner => members ++ [(k, .table .onTheWay inner)]
    | some (.table .inline _) => none
    | some (.table origin inner) =>
      (within change path inner).map fun inner => replace k (.table origin inner) members
    | some (.tableList tables) =>
      (onLast (within change path) tables).map fun tables => replace k (.tableList tables) members
    | some _ => none

/-- Gives a table its header: one that is not there, or only on the way. -/
def openTable (key : String) (members : TomlMembers) : Option TomlMembers :=
  match members.lookup key with
  | none => some (members ++ [(key, .table .header [])])
  | some (.table .onTheWay inner) => some (replace key (.table .header inner) members)
  | some _ => none

/-- Adds a table to those under one header. -/
def openTables (key : String) (members : TomlMembers) : Option TomlMembers :=
  match members.lookup key with
  | none => some (members ++ [(key, .tableList [[]])])
  | some (.tableList tables) => some (replace key (.tableList (tables ++ [[]])) members)
  | some _ => none

end Toml

end Academy
