import Academy.Json.Reading
import Academy.Text.Quoted

/-!
# Codecs

How a type of value is written as JSON and what is accepted for it. A
codec decodes a reading in the order of the text and reports the first
thing that is wrong, be it a value that is not the expected one or the
place where the text stops being JSON.

A record is described by its fields (`Field`), and its codec is derived
from them once for all records (`Codec.record`): a record is written as
an object with its fields in order, and read from an object in any order,
with unknown members passed over, repeated ones refused, and the first
missing one reported at the end – or from an array, position by position.
-/

namespace Academy

/-- **Why a value is refused.** -/
inductive DecodeError
  /-- The text is not JSON from some place on. -/
  | fault (f : Fault)
  /-- A value of another kind than expected. -/
  | wrongKind (found : Found) (expected : String)
  /-- A whole number beyond the bounds of what is expected. -/
  | outOfRange (n : JsonNumber) (expected : String)
  /-- An array that ends too early. -/
  | tooShort (length : Nat) (expected : String)
  /-- A member that has to be there and is not. -/
  | missing (field : String)
  /-- A member that is there twice. -/
  | repeated (field : String)
  /-- A word that is not one of those expected. -/
  | unknownWord (word : String) (expected : List String)
  /-- A date in none of its forms. -/
  | noDateForm
  /-- A text that is no identifier. -/
  | invalidIdentifier (text : String)
  /-- A text that is no date, or a date outside the calendar. -/
  | invalidDate (text : String)

namespace DecodeError

/-- A scalar as it is named. -/
def scalarName : Scalar → String
  | .null => "null"
  | .bool b => "boolean `" ++ (if b then "true" else "false") ++ "`"
  | .number (.real x) => "floating point `" ++ String.ofList (Json.realText x) ++ "`"
  | .number n => "integer `" ++ String.ofList (Json.numberText n) ++ "`"

/-- A value as it is named. -/
def foundName : Found → String
  | .scalar s => scalarName s
  | .string s => "string " ++ String.ofList (quoted s.toList)
  | .sequence => "sequence"
  | .map => "map"

/-- The words that are expected, as a list of alternatives. -/
def alternatives : List String → String
  | [] => ""
  | [a] => "`" ++ a ++ "`"
  | [a, b] => "`" ++ a ++ "` or `" ++ b ++ "`"
  | words => "one of " ++ ", ".intercalate (words.map fun w => "`" ++ w ++ "`")

/-- **What is said about a refused value.** A text that is not JSON has no
message of its own. -/
def message : DecodeError → String
  | .fault _ => ""
  | .wrongKind found expected => "invalid type: " ++ foundName found ++ ", expected " ++ expected
  | .outOfRange n expected =>
    "invalid value: " ++ scalarName (.number n) ++ ", expected " ++ expected
  | .tooShort length expected =>
    "invalid length " ++ toString length ++ ", expected " ++ expected
  | .missing field => "missing field `" ++ field ++ "`"
  | .repeated field => "duplicate field `" ++ field ++ "`"
  | .unknownWord word expected =>
    "unknown variant `" ++ word ++ "`, expected " ++ alternatives expected
  | .noDateForm => "data did not match any variant of untagged enum DateValue"
  | .invalidIdentifier text => "无效的 ObjectId: " ++ text
  | .invalidDate text => "无效的日期: " ++ text

end DecodeError

/-- **How a type of value is written and read.** Decoding is given how
many levels of nesting are left for values of unknown shape. -/
structure Codec (α : Type) where
  /-- The JSON of a value. -/
  encode : α → Json
  /-- The value of a reading. -/
  decode : (room : Nat) → Reading → Except DecodeError α

namespace Codec

variable {α β : Type}

/-- Decodes a whole text. -/
def ofText (c : Codec α) (s : List Char) : Except DecodeError α := do
  let (reading, rest) := Reading.ofText s
  let value ← c.decode Reading.nestingLimit reading
  if rest.isEmpty then pure value else throw (.fault .malformed)

/-- The text of a value. -/
def text (c : Codec α) (a : α) : List Char :=
  (c.encode a).text

/-- The codec of a type whose values correspond to those of another. -/
def correspond (c : Codec α) (forth : α → β) (back : β → α) : Codec β where
  encode b := c.encode (back b)
  decode room reading := (c.decode room reading).map forth

/-- The codec of a type whose values are some of those of another. -/
def restrict (c : Codec α) (forth : α → Except DecodeError β) (back : β → α) : Codec β where
  encode b := c.encode (back b)
  decode room reading := (c.decode room reading).bind forth

/-! ## Scalars -/

/-- The error of a value of another kind, once the text holds it. -/
def refuse (expected : String) : Reading → DecodeError
  | .absent => .fault .truncated
  | .string (.ok s) _ => .wrongKind (.string s) expected
  | .string (.error f) _ => .fault f
  | .scalar (.ok s) _ => .wrongKind (.scalar s) expected
  | .scalar (.error f) _ => .fault f
  | .array _ _ => .wrongKind .sequence expected
  | .object _ _ => .wrongKind .map expected

/-- Strings, under the name that messages give them. -/
def stringAs (expected : String) : Codec String where
  encode s := .string s
  decode _
    | .string (.ok s) _ => .ok s
    | reading => .error (refuse expected reading)

/-- Strings. -/
def string : Codec String :=
  stringAs "a string"

/-- Whole numbers from zero to below `bound`. -/
def natBelow (bound : Nat) (expected : String) : Codec Nat where
  encode n := .nat n
  decode _
    | .scalar (.ok (.number (.natural n))) _ =>
      if n < bound then .ok n else .error (.outOfRange (.natural n) expected)
    | .scalar (.ok (.number (.negative n))) _ => .error (.outOfRange (.negative n) expected)
    | reading => .error (refuse expected reading)

/-- Numbers of 8 bits. -/
def uint8 : Codec UInt8 :=
  (natBelow UInt8.size "u8").correspond UInt8.ofNat UInt8.toNat

/-- Numbers of 32 bits. -/
def uint32 : Codec UInt32 :=
  (natBelow UInt32.size "u32").correspond UInt32.ofNat UInt32.toNat

/-- Counts of things, of 64 bits. -/
def count : Codec Nat :=
  natBelow UInt64.size "usize"

/-- Numbers of the binary64 format; whole numbers are taken for the
nearest one. -/
def binary64 : Codec Binary64 where
  encode x := if x.isFinite then .number (.real x) else .null
  decode _
    | .scalar (.ok (.number (.natural n))) _ => .ok (.ofNat n)
    | .scalar (.ok (.number (.negative n))) _ => .ok (-(.ofNat n))
    | .scalar (.ok (.number (.real x))) _ => .ok x
    | reading => .error (refuse "f64" reading)

/-- Values that may be `null`. -/
def nullable (c : Codec α) : Codec (Option α) where
  encode
    | some a => c.encode a
    | none => .null
  decode room
    | .scalar (.ok .null) _ => .ok none
    | reading => (c.decode room reading).map some

/-! ## Words -/

/-- The value of a word among its alternatives. -/
def ofWord (words : List (String × α)) (word : String) : Except DecodeError α :=
  match words.lookup word with
  | some a => .ok a
  | none => .error (.unknownWord word (words.map Prod.fst))

/-- **One of some words**, as a string or as the name of the only member of
an object, whose value is `null`. How a text begins decides which of the
two it is, and what begins otherwise is not read at all. -/
def oneOf (words : List (String × α)) (wordOf : α → String) : Codec α where
  encode a := .string (wordOf a)
  decode _
    | .absent => .error (.fault .truncated)
    | .string (.ok word) _ => ofWord words word
    | .string (.error f) _ => .error (.fault f)
    | .scalar _ _ => .error (.fault .malformed)
    | .array _ _ => .error (.fault .malformed)
    | .object [] stop => .error (.fault (stop.getD .malformed))
    | .object ((.error f, _) :: _) _ => .error (.fault f)
    | .object ((.ok word, value) :: members) stop => do
      let a ← ofWord words word
      match value with
      | .scalar (.ok .null) _ =>
        match members, stop with
        | [], none => .ok a
        | [], some f => .error (.fault f)
        | _ :: _, _ => .error (.fault .malformed)
      | reading => .error (refuse "unit" reading)

/-! ## Lists -/

/-- Decodes the items of a list. -/
def decodeItems (c : Codec α) (room : Nat) : List Reading → Except DecodeError (List α)
  | [] => .ok []
  | item :: items => do
    let a ← c.decode room item
    let as ← decodeItems c room items
    pure (a :: as)

/-- Lists. -/
def list (c : Codec α) : Codec (List α) where
  encode as := .array (as.map c.encode)
  decode room
    | .array items stop => do
      let as ← decodeItems c (room - 1) items
      match stop with
      | none => pure as
      | some f => throw (.fault f)
    | reading => .error (refuse "a sequence" reading)

end Codec

/-! ## Records -/

/-- **A field of a record.** -/
structure Field where
  /-- The name of its member. -/
  name : String
  /-- The type of its value. -/
  Value : Type
  /-- How its value is written and read. -/
  codec : Codec Value
  /-- Its value where the member is missing, if it may be missing. -/
  absent : Option Value

namespace Field

/-- A field whose member has to be there. -/
def required {α : Type} (name : String) (codec : Codec α) : Field :=
  ⟨name, α, codec, none⟩

/-- A field whose member may be `null` or missing. -/
def optional {α : Type} (name : String) (codec : Codec α) : Field :=
  ⟨name, Option α, codec.nullable, some none⟩

/-- A field that has a value of its own where the member is missing. -/
def withDefault {α : Type} (name : String) (codec : Codec α) (value : α) : Field :=
  ⟨name, α, codec, some value⟩

/-- The values of a record's fields. -/
def Row : List Field → Type
  | [] => Unit
  | f :: fields => f.Value × Row fields

/-- The values of the fields that have been read. -/
def Slots : List Field → Type
  | [] => Unit
  | f :: fields => Option f.Value × Slots fields

/-- No field has been read. -/
def noSlots : (fields : List Field) → Slots fields
  | [] => ()
  | _ :: fields => (none, noSlots fields)

/-- The members of a record. -/
def encodeRow : (fields : List Field) → Row fields → List (String × Json)
  | [], _ => []
  | f :: fields, (value, row) => (f.name, f.codec.encode value) :: encodeRow fields row

/-- Decodes a member into its slot; none where no field has its name. -/
def decodeMember (room : Nat) (name : String) (reading : Reading) :
    (fields : List Field) → Slots fields → Option (Except DecodeError (Slots fields))
  | [], _ => none
  | f :: fields, (slot, slots) =>
    if name = f.name then
      some (match slot with
        | some _ => .error (.repeated name)
        | none => (f.codec.decode room reading).map fun value => (some value, slots))
    else (decodeMember room name reading fields slots).map (·.map fun slots => (slot, slots))

/-- Decodes the members of an object in order. A member without a field is
passed over, as far as the text goes on after it. -/
def decodeMembers (room : Nat) (fields : List Field) :
    List (Except Fault String × Reading) → Slots fields → Except DecodeError (Slots fields)
  | [], slots => .ok slots
  | (.error f, _) :: _, _ => .error (.fault f)
  | (.ok name, reading) :: members, slots =>
    match decodeMember room name reading fields slots with
    | some (.ok slots) => decodeMembers room fields members slots
    | some (.error e) => .error e
    | none => match reading.stop with
      | some f => .error (.fault f)
      | none => decodeMembers room fields members slots

/-- The row of filled slots; the first field without a value is missing. -/
def fillSlots : (fields : List Field) → Slots fields → Except DecodeError (Row fields)
  | [], _ => .ok ()
  | f :: fields, (slot, slots) =>
    match slot, f.absent with
    | some value, _ => (fillSlots fields slots).map (value, ·)
    | none, some value => (fillSlots fields slots).map (value, ·)
    | none, none => .error (.missing f.name)

/-- The row of the fields that an array is too short for; none where one of
them has to be there. -/
def absentRow : (fields : List Field) → Option (Row fields)
  | [] => some ()
  | f :: fields => do
    let value ← f.absent
    let row ← absentRow fields
    pure (value, row)

/-- Decodes the items of an array as the fields in order, `index` of them
having been read. Where the array ends early, the remaining fields are
filled up if `fills`, and it is too short otherwise. -/
def decodePositions (room : Nat) (fills : Bool) (expected : String) (index : Nat) :
    (fields : List Field) → List Reading → Option Fault → Except DecodeError (Row fields)
  | [], [], none => .ok ()
  | [], [], some f => .error (.fault f)
  | [], _ :: _, _ => .error (.fault .malformed)
  | _ :: _, [], some f => .error (.fault f)
  | f :: fields, [], none =>
    match (if fills then absentRow (f :: fields) else none) with
    | some row => .ok row
    | none => .error (.tooShort index expected)
  | f :: fields, item :: items, stop => do
    let value ← f.codec.decode room item
    let row ← decodePositions room fills expected (index + 1) fields items stop
    pure (value, row)

end Field

/-- **The codec of a record** of the given name and fields. Where `fills`,
an array may end before the last field. -/
def Codec.record (name : String) (fields : List Field) (fills : Bool) :
    Codec (Field.Row fields) where
  encode row := .object (Field.encodeRow fields row)
  decode room
    | .object members stop => do
      let slots ← Field.decodeMembers (room - 1) fields members (Field.noSlots fields)
      match stop with
      | some f => throw (.fault f)
      | none => Field.fillSlots fields slots
    | .array items stop =>
      let elements := if fields.length = 1 then " element" else " elements"
      Field.decodePositions (room - 1) fills
        ("struct " ++ name ++ " with " ++ toString fields.length ++ elements) 0 fields items stop
    | reading => .error (refuse ("struct " ++ name) reading)

end Academy
