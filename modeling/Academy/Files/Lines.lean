import Academy.Json.Codec
import Academy.Text.Words

/-!
# Records as lines

A file of records has one record a line, as compact JSON, and every line
is ended by a line feed. When it is read, a line may as well be ended by
a carriage return and a line feed, and the last one by nothing; lines
that are blank are passed over, but counted.

The first line that is no text or no record is reported with its number.
-/

namespace Academy

/-! ## Lines -/

/-- A reversed line without the carriage return at its end. -/
def withoutReturn : List UInt8 → List UInt8
  | 0x0D :: line => line
  | line => line

/-- The lines of some bytes, after the reversed beginning of the first. -/
def linesAfter (line : List UInt8) : List UInt8 → List (List UInt8)
  | [] => if line.isEmpty then [] else [line.reverse]
  | b :: bytes =>
    if b = 0x0A then (withoutReturn line).reverse :: linesAfter [] bytes
    else linesAfter (b :: line) bytes

/-- **The lines of some bytes.** -/
def physicalLines (bytes : List UInt8) : List (List UInt8) :=
  linesAfter [] bytes

/-- The bytes of a text. -/
def utf8Bytes (s : List Char) : List UInt8 :=
  (String.ofList s).toUTF8.data.toList

/-- The text of some bytes, if they are those of a text. -/
def ofUtf8Bytes? (bytes : List UInt8) : Option (List Char) :=
  (String.fromUTF8? ⟨bytes.toArray⟩).map String.toList

/-! ## Records -/

/-- **Why a line is no record.** -/
inductive LineFault
  /-- It is no text. -/
  | notText
  /-- It is a text, but no record. -/
  | record (error : DecodeError)

namespace Codec

variable {α : Type}

/-- The record of a line; a blank line has none. -/
def ofLine (c : Codec α) (line : List UInt8) : Except LineFault (Option α) :=
  match ofUtf8Bytes? line with
  | none => .error .notText
  | some s =>
    if isBlankText s then .ok none
    else
      match c.ofText s with
      | .ok a => .ok (some a)
      | .error e => .error (.record e)

/-- The records of some lines, the first of which has the given number. -/
def ofLines (c : Codec α) (number : Nat) : List (List UInt8) → Except (Nat × LineFault) (List α)
  | [] => .ok []
  | line :: lines =>
    match c.ofLine line with
    | .error fault => .error (number, fault)
    | .ok none => ofLines c (number + 1) lines
    | .ok (some a) => (ofLines c (number + 1) lines).map (a :: ·)

/-- **The records of a file's bytes.** -/
def ofBytes (c : Codec α) (bytes : List UInt8) : Except (Nat × LineFault) (List α) :=
  c.ofLines 1 (physicalLines bytes)

/-- **The bytes of a file of records.** -/
def toBytes (c : Codec α) (records : List α) : List UInt8 :=
  utf8Bytes (records.flatMap fun a => c.text a ++ ['\n'])

end Codec

end Academy
