import Academy.Calendar.Text
import Academy.Identifier
import Academy.Json.Codec

/-!
# Extended JSON

Identifiers and instants are no JSON values, and the import tools of
document databases know them by a tag: an identifier is an object with
the one member `$oid`, an instant an object with the one member `$date`.

An instant is written as text. It is also read from a number of
milliseconds since 1970 began, either as a number or, under the tag
`$numberLong`, as a numeral. The value under `$date` is read before its
form is looked at, and one that has none of the three forms is refused
whatever it is.
-/

namespace Academy

/-- The tag of identifiers. -/
def identifierTag : String := "$oid"

/-- The tag of instants. -/
def instantTag : String := "$date"

/-- The tag of whole numbers that are written as text. -/
def longTag : String := "$numberLong"

/-- An identifier by its text. -/
def Identifier.parse (s : String) : Except DecodeError Identifier :=
  match Identifier.ofText? s.toList with
  | some i => .ok i
  | none => .error (.invalidIdentifier s)

/-- **Identifiers**, tagged. -/
def Codec.identifier : Codec Identifier :=
  (Codec.record "OidRepr" [.required identifierTag .string] false).restrict
    (fun (text, _) => Identifier.parse text) (fun i => (i.text, ()))

/-! ## Instants -/

/-- The forms of the value under the tag of instants. -/
inductive DateForm
  /-- A date and time. -/
  | relaxed (text : String)
  /-- Milliseconds. -/
  | millis (n : Int)
  /-- Milliseconds as a numeral. -/
  | canonical (text : String)

namespace DateForm

/-- The value of the only member of a given name, if it is a string. Other
members do not matter. -/
def onlyString? (name : String) (members : List (String × Json)) : Option String :=
  match members.filter (·.1 = name) with
  | [(_, .string s)] => some s
  | _ => none

/-- The form of a value. A number of milliseconds has to fit 64 bits with
its sign. -/
def ofJson? : Json → Option DateForm
  | .string s => some (.relaxed s)
  | .number (.natural n) => (signed? n).map .millis
  | .number (.negative n) => (signed? (-n)).map .millis
  | .object members => (onlyString? longTag members).map .canonical
  | _ => none

/-- The instant of some milliseconds, which are shown as `text` where there
is none. -/
def ofMillis (n : Int) : Except DecodeError Instant :=
  match Instant.ofMillis? n with
  | some t => .ok t
  | none => .error (.invalidDate (toString n))

/-- **The instant of a form.** -/
def instant : DateForm → Except DecodeError Instant
  | .relaxed text =>
    match Instant.ofText? text.toList with
    | some t => .ok t
    | none => .error (.invalidDate text)
  | .millis n => ofMillis n
  | .canonical text =>
    match intOfText? text.toList with
    | some n => ofMillis n
    | none => .error (.invalidDate text)

end DateForm

/-- The value under the tag of instants, by its form. -/
def Codec.dateForm : Codec DateForm where
  encode
    | .relaxed text => .string text
    | .millis n =>
      .number (if n < 0 then .negative n.natAbs else .natural n.natAbs)
    | .canonical text => .object [(longTag, .string text)]
  decode room reading :=
    match reading.toJson room with
    | .error f => .error (.fault f)
    | .ok value =>
      match DateForm.ofJson? value with
      | some form => .ok form
      | none => .error .noDateForm

/-- **Instants**, tagged. -/
def Codec.instant : Codec Instant :=
  (Codec.record "DateRepr" [.required instantTag .dateForm] false).restrict
    (fun (form, _) => form.instant) (fun t => (.relaxed (String.ofList t.text), ()))

end Academy
