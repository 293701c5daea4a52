import Academy.Json.Basic
import Academy.Counts
import Academy.Text.Lowercase
import Academy.Toml.Basic

/-!
# Values of settings

Settings come from files of two formats and from the environment, and
all of them are brought to one kind of value, in which they can be laid
over each other. What a value is read as is decided at the end, by the
setting that it is for, and with some leniency: a number may be given as
a text, a text as a number.
-/

namespace Academy

/-- **A value of a setting.** -/
inductive SettingValue
  | nothing
  | bool (b : Bool)
  | integer (n : Int)
  | real (x : Binary64)
  | text (s : String)
  | list (items : List SettingValue)
  | table (members : List (String × SettingValue))

namespace SettingValue

instance : Inhabited SettingValue := ⟨nothing⟩

/-! ## From files -/

/-- The value of a number of a JSON text. A negative one that does not fit
64 bits with a sign is taken for the nearest binary64 number. -/
def ofJsonNumber : JsonNumber → SettingValue
  | .natural n => integer n
  | .negative n => ((signed? (-n)).map integer).getD (real (-(.ofNat n)))
  | .real x => real x

mutual

/-- The value of a JSON value. -/
def ofJson : Json → SettingValue
  | .null => nothing
  | .bool b => bool b
  | .number n => ofJsonNumber n
  | .string s => text s
  | .array items => list (ofJsonItems items)
  | .object members => table (ofJsonMembers members)

/-- The values of the items of an array. -/
def ofJsonItems : List Json → List SettingValue
  | [] => []
  | item :: items => ofJson item :: ofJsonItems items

/-- The members of a table; of those with one name the last counts. -/
def ofJsonMembers : List (String × Json) → List (String × SettingValue)
  | [] => []
  | (name, value) :: members =>
    let rest := ofJsonMembers members
    if rest.any (·.1 = name) then rest else (name, ofJson value) :: rest

end

mutual

/-- The value of a TOML value. A date or time is its text. -/
def ofToml : Toml → SettingValue
  | .string s => text s
  | .integer n => integer n
  | .real x => real x
  | .bool b => bool b
  | .moment s => text s
  | .array items => list (ofTomlItems items)
  | .table _ members => table (ofTomlMembers members)
  | .tableList tables => list (ofTomlTables tables)

/-- The values of the items of an array. -/
def ofTomlItems : List Toml → List SettingValue
  | [] => []
  | item :: items => ofToml item :: ofTomlItems items

/-- The members of a table. -/
def ofTomlMembers : List (String × Toml) → List (String × SettingValue)
  | [] => []
  | (name, value) :: members => (name, ofToml value) :: ofTomlMembers members

/-- The tables under one header. -/
def ofTomlTables : List (List (String × Toml)) → List SettingValue
  | [] => []
  | members :: tables => table (ofTomlMembers members) :: ofTomlTables tables

end

/-! ## What a value is read as -/

/-- The text of a value. -/
def toText? : SettingValue → Option String
  | text s => some s
  | bool b => some (if b then "true" else "false")
  | integer n => some (toString n)
  | real x => some (String.ofList (DecimalStyle.withoutExponent.text x))
  | _ => none

/-- **The number of a value**, of 64 bits. A truth value is one or zero, and
so are the words for being on and off; another number is rounded, and what
it lies beyond the bounds is cut off. -/
def toNat? : SettingValue → Option Nat
  | integer n => if 0 ≤ n then some n.toNat else none
  | bool b => some (if b then 1 else 0)
  | real x => some (x.toWhole.floorWithin (UInt64.size - 1))
  | text s =>
    let word := String.ofList (lowercase s.toList)
    if word = "true" ∨ word = "on" ∨ word = "yes" then some 1
    else if word = "false" ∨ word = "off" ∨ word = "no" then some 0
    else natOfText? s.toList
  | _ => none

/-! ## Laying over -/

/-- The members of a value; one that is no table has none. -/
def members : SettingValue → List (String × SettingValue)
  | table members => members
  | _ => []

/-- The items of a value; one that is no list has none. -/
def items : SettingValue → List SettingValue
  | list items => items
  | _ => []

/-- Changes a member, or adds one that is made from nothing. -/
def changeMember (name : String) (change : SettingValue → SettingValue) :
    List (String × SettingValue) → List (String × SettingValue)
  | [] => [(name, change nothing)]
  | (n, value) :: members =>
    if n = name then (n, change value) :: members
    else (n, value) :: changeMember name change members

/-- Changes an item, filling up with nothing before it. A negative index
counts from the end, and fills up at the beginning. -/
def changeItem (index : Int) (change : SettingValue → SettingValue) (items : List SettingValue) :
    List SettingValue :=
  let index := if index < 0 then index + items.length else index
  let items := List.replicate (-index).toNat nothing ++ items
  let items := items ++ List.replicate (index.toNat + 1 - items.length) nothing
  items.modify index.toNat change

mutual

/-- **Lays a value over another.** A table adds its members one by one; any
other value takes the other's place. -/
def overlay (below : SettingValue) : SettingValue → SettingValue
  | table members => table (overlayMembers below.members members)
  | value => value

/-- Lays members over those below. -/
def overlayMembers (below : List (String × SettingValue)) :
    List (String × SettingValue) → List (String × SettingValue)
  | [] => below
  | (name, value) :: members =>
    overlayMembers (changeMember name (fun b => overlay b value) below) members

end

/-! ## Paths -/

/-- **A step on the way to a value.** -/
inductive Step
  | member (name : String)
  | item (index : Int)
deriving DecidableEq, Repr

/-- Whether there is room for a list in which a step finds its item. -/
def Step.fits : Step → Bool
  | .member _ => true
  | .item index => index.natAbs < memoryLimit

/-- Whether a character may stand in the name of a member on a path. -/
def isStepChar (c : Char) : Bool :=
  c.isAlphanum || c = '_' || c = '-'

/-- Whether a character may stand beside an index. -/
def isIndexBlank (c : Char) : Bool :=
  c = ' ' || c = '\t'

/-- The steps after the first of a path, of which there are at most `fuel`: a
dot and a name, or an index between brackets with blanks around it. -/
def stepsOfText? : (fuel : Nat) → List Char → Option (List Step)
  | _, [] => some []
  | 0, _ => none
  | fuel + 1, '.' :: s =>
    let name := s.takeWhile isStepChar
    if name.isEmpty then none
    else (stepsOfText? fuel (s.dropWhile isStepChar)).map (.member (String.ofList name) :: ·)
  | fuel + 1, '[' :: s => do
    let (negative, digits) := match s.dropWhile isIndexBlank with
      | '-' :: s => (true, s)
      | s => (false, s)
    let (digits, rest) := splitDigits digits
    if digits.isEmpty then none
    let index ← signed? (if negative then -(digitsValue digits : Int) else digitsValue digits)
    match rest.dropWhile isIndexBlank with
    | ']' :: rest => (stepsOfText? fuel rest).map (.item index :: ·)
    | _ => none
  | _, _ => none

/-- **The steps of a path.** A name that is no path is a single step. -/
def stepsOf (name : String) : List Step :=
  let s := name.toList
  let first := s.takeWhile isStepChar
  match (if first.isEmpty then none else stepsOfText? s.length (s.dropWhile isStepChar)) with
  | some steps => .member (String.ofList first) :: steps
  | none => [.member name]

/-- Changes the value that steps lead to. What is in the way is put aside. -/
def change (f : SettingValue → SettingValue) : List Step → SettingValue → SettingValue
  | [], value => f value
  | .member name :: steps, value => table (changeMember name (change f steps) value.members)
  | .item index :: steps, value => list (changeItem index (change f steps) value.items)

/-- **Sets what a name stands for**, by laying a value over it, as far as
there is room for what the name leads through. -/
def set? (root : SettingValue) (name : String) (value : SettingValue) : Option SettingValue :=
  let steps := stepsOf name
  if steps.all Step.fits then some (change (fun below => overlay below value) steps root)
  else none

/-- Sets what some names stand for, one after the other. -/
def setAll? (root : SettingValue) (members : List (String × SettingValue)) :
    Option SettingValue :=
  members.foldlM (fun root (name, value) => set? root name value) root

end SettingValue

end Academy
