import Academy.Json.Numeral

/-!
# Reading a JSON text

A record is checked while it is read: a member of the wrong type is
reported even if the text breaks off later, and a text that breaks off
earlier is reported as broken. So reading a text gives more than its
value. It gives a `Reading`, the value as far as the text goes, with the
place where it stops being JSON marked by a `Fault`; what is expected of
the value is then asked of the reading, in the order of the text.

A part of the text may be at fault only when it is used. A string with
half of a surrogate pair has no text, and a numeral may be too large for
a number; where a member is passed over, neither matters. A reading
therefore says of each string and scalar what it is when it is used, and
whether the text goes on when it is passed over. How a broken value
begins is kept too: where a string is all that is allowed, a word that
breaks off is no more than something else.
-/

namespace Academy

/-- **Why a text is not JSON.** -/
inductive Fault
  /-- It ends where a value goes on. -/
  | truncated
  /-- It goes on as no value does. -/
  | malformed
deriving DecidableEq, Repr

/-- A value without parts that is no string. -/
inductive Scalar
  | null
  | bool (b : Bool)
  | number (n : JsonNumber)
deriving DecidableEq

/-- What kind of value a text has, as messages name it. -/
inductive Found
  /-- A value without parts, which is named itself. -/
  | scalar (s : Scalar)
  /-- A string, which is named itself. -/
  | string (s : String)
  /-- An array. -/
  | sequence
  /-- An object. -/
  | map
deriving DecidableEq

/-- **A value as it was read.** -/
inductive Reading
  /-- Nothing: the text ends where a value is due. -/
  | absent
  /-- A string: its text when it is used, and what stops the reading after
  it. -/
  | string (used : Except Fault String) (stop : Option Fault)
  /-- Another value without parts: what it is when it is used, and what
  stops the reading after it. -/
  | scalar (used : Except Fault Scalar) (stop : Option Fault)
  /-- An array: its items, and what stops the reading before its end. -/
  | array (items : List Reading) (stop : Option Fault)
  /-- An object: its members with their names when they are used, and what
  stops the reading before its end. -/
  | object (members : List (Except Fault String × Reading)) (stop : Option Fault)

namespace Reading

/-- No value. -/
def broken (f : Fault) : Reading :=
  .scalar (.error f) (some f)

instance : Inhabited Reading := ⟨absent⟩

/-- What stops the reading. -/
def stop : Reading → Option Fault
  | .absent => some .truncated
  | .string _ f => f
  | .scalar _ f => f
  | .array _ f => f
  | .object _ f => f

end Reading

/-! ## Blanks and words -/

/-- Whether a character may stand between the parts of a JSON text. -/
def isJsonBlank (c : Char) : Bool :=
  c = ' ' || c = '\n' || c = '\t' || c = '\r'

/-- A text without the blanks in front. -/
def skipBlanks (s : List Char) : List Char :=
  s.dropWhile isJsonBlank

/-- Reads the rest of a word. -/
def readWord (value : Scalar) : List Char → List Char → Reading × List Char
  | [], s => (.scalar (.ok value) none, s)
  | _ :: _, [] => (.broken .truncated, [])
  | w :: word, c :: s => if c = w then readWord value word s else (.broken .malformed, s)

/-! ## Strings -/

/-- A piece of a string: a character, or half a character's worth of
UTF-16 by its number. -/
inductive StringPiece
  | char (c : Char)
  | unit (n : Nat)

/-- The character of a letter after a backslash. -/
def escapeLetter? (c : Char) : Option Char :=
  if c = '"' ∨ c = '\\' ∨ c = '/' then some c
  else if c = 'b' then some (Char.ofNat 0x8)
  else if c = 'f' then some (Char.ofNat 0xC)
  else if c = 'n' then some '\n'
  else if c = 'r' then some '\r'
  else if c = 't' then some '\t'
  else none

/-- The fault of a unit that is not four digits: the text has to hold four
bytes for its digits to be looked at. -/
def unitFault (s : List Char) : Fault :=
  if (String.ofList s).utf8ByteSize < 4 then .truncated else .malformed

/-- Reads a string after its quote: its pieces, what stops the reading
before the closing quote, and the text after it. -/
def readString : List Char → List StringPiece × Option Fault × List Char
  | [] => ([], some .truncated, [])
  | '"' :: s => ([], none, s)
  | '\\' :: 'u' :: a :: b :: c :: d :: s =>
    match hexValue? [a, b, c, d] with
    | some n =>
      let (pieces, stop, rest) := readString s
      (.unit n :: pieces, stop, rest)
    | none => ([], some .malformed, s)
  | '\\' :: 'u' :: s => ([], some (unitFault s), s)
  | '\\' :: c :: s =>
    match escapeLetter? c with
    | some e =>
      let (pieces, stop, rest) := readString s
      (.char e :: pieces, stop, rest)
    | none => ([], some .malformed, s)
  | ['\\'] => ([], some .truncated, [])
  | c :: s =>
    if c.toNat < 0x20 then ([], some .malformed, s)
    else
      let (pieces, stop, rest) := readString s
      (.char c :: pieces, stop, rest)

/-- **The text of pieces**: units beyond the basic plane come in pairs, a
high one and a low one, and half a pair is no character. -/
def piecesText (stop : Option Fault) : List StringPiece → Except Fault (List Char)
  | [] => match stop with
    | none => .ok []
    | some f => .error f
  | .char c :: pieces => (piecesText stop pieces).map (c :: ·)
  | .unit n :: pieces =>
    if 0xDC00 ≤ n ∧ n ≤ 0xDFFF then .error .malformed
    else if n < 0xD800 ∨ 0xDFFF < n then (piecesText stop pieces).map (Char.ofNat n :: ·)
    else match pieces with
      | .unit m :: pieces =>
        if 0xDC00 ≤ m ∧ m ≤ 0xDFFF then
          (piecesText stop pieces).map
            (Char.ofNat ((n - 0xD800) * 0x400 + (m - 0xDC00) + 0x10000) :: ·)
        else .error .malformed
      | .char _ :: _ => .error .malformed
      | [] => .error (stop.getD .malformed)

/-- Reads a string after its quote: its text when it is used, what stops
the reading, and the text after it. -/
def readText (s : List Char) : Except Fault String × Option Fault × List Char :=
  let (pieces, stop, rest) := readString s
  ((piecesText stop pieces).map String.ofList, stop, rest)

/-! ## Numerals -/

/-- A numeral that stops short of a digit: at the end of the text it is
truncated when it is used, and malformed when it is passed over. -/
def brokenNumeral (s : List Char) : Reading × List Char :=
  match s with
  | [] => (.scalar (.error .truncated) (some .malformed), [])
  | _ :: _ => (.broken .malformed, s)

/-- A complete numeral; one that is too large is at fault when it is used. -/
def numeralReading (n : Numeral) : Reading :=
  match n.number? with
  | some number => .scalar (.ok (.number number)) none
  | none => .scalar (.error .malformed) none

/-- Reads what may follow the fraction of a numeral. -/
def readExponent (negative : Bool) (whole fraction : List Char) :
    List Char → Reading × List Char
  | [] => (numeralReading ⟨negative, whole, fraction, none⟩, [])
  | c :: s =>
    if c = 'e' ∨ c = 'E' then
      let (down, s) := splitSign s
      let (digits, s) := splitDigits s
      if digits = [] then brokenNumeral s
      else (numeralReading ⟨negative, whole, fraction, some (down, digits)⟩, s)
    else (numeralReading ⟨negative, whole, fraction, none⟩, c :: s)

/-- Reads a numeral after its sign. No digit follows a leading zero. -/
def readMagnitude (negative : Bool) (s : List Char) : Reading × List Char :=
  let (whole, s) := splitDigits s
  match whole with
  | [] => brokenNumeral s
  | '0' :: _ :: _ => (.broken .malformed, s)
  | whole =>
    match s with
    | '.' :: s =>
      let (fraction, s) := splitDigits s
      if fraction = [] then brokenNumeral s else readExponent negative whole fraction s
    | s => readExponent negative whole [] s

/-- Reads a numeral. -/
def readNumeral : List Char → Reading × List Char
  | '-' :: s => readMagnitude true s
  | s => readMagnitude false s

/-! ## Values -/

/-- Reads a value without parts. -/
def readScalar : List Char → Reading × List Char
  | [] => (.absent, [])
  | c :: s =>
    if c = 'n' then readWord .null ['u', 'l', 'l'] s
    else if c = 't' then readWord (.bool true) ['r', 'u', 'e'] s
    else if c = 'f' then readWord (.bool false) ['a', 'l', 's', 'e'] s
    else if c = '"' then
      let (used, stop, rest) := readText s
      (.string used stop, rest)
    else if c = '-' ∨ c.isDigit then readNumeral (c :: s)
    else (.broken .malformed, c :: s)

mutual

/-- Reads a value; `fuel` bounds how many values are begun within it. -/
def readValue (fuel : Nat) (s : List Char) : Reading × List Char :=
  match fuel with
  | 0 => (.absent, [])
  | fuel + 1 =>
    match skipBlanks s with
    | '[' :: s =>
      let (items, stop, rest) := readItems fuel true s
      (.array items stop, rest)
    | '{' :: s =>
      let (members, stop, rest) := readMembers fuel true s
      (.object members stop, rest)
    | s => readScalar s

/-- Reads the items of an array up to the bracket. -/
def readItems (fuel : Nat) (first : Bool) (s : List Char) :
    List Reading × Option Fault × List Char :=
  match fuel with
  | 0 => ([], some .truncated, [])
  | fuel + 1 =>
    match skipBlanks s with
    | [] => ([], some .truncated, [])
    | ']' :: s => ([], none, s)
    | c :: s =>
      if first then readItem fuel (c :: s)
      else if c = ',' then
        match skipBlanks s with
        | ']' :: s => ([], some .malformed, s)
        | s => readItem fuel s
      else ([], some .malformed, s)

/-- Reads an item of an array and those after it. -/
def readItem (fuel : Nat) (s : List Char) : List Reading × Option Fault × List Char :=
  match fuel with
  | 0 => ([], some .truncated, [])
  | fuel + 1 =>
    let (item, rest) := readValue fuel s
    match item.stop with
    | some f => ([item], some f, rest)
    | none =>
      let (items, stop, rest) := readItems fuel false rest
      (item :: items, stop, rest)

/-- Reads the members of an object up to the brace. -/
def readMembers (fuel : Nat) (first : Bool) (s : List Char) :
    List (Except Fault String × Reading) × Option Fault × List Char :=
  match fuel with
  | 0 => ([], some .truncated, [])
  | fuel + 1 =>
    match skipBlanks s with
    | [] => ([], some .truncated, [])
    | '}' :: s => ([], none, s)
    | c :: s =>
      if first then readMember fuel (c :: s)
      else if c = ',' then
        match skipBlanks s with
        | '}' :: s => ([], some .malformed, s)
        | s => readMember fuel s
      else ([], some .malformed, s)

/-- Reads a member of an object and those after it. -/
def readMember (fuel : Nat) (s : List Char) :
    List (Except Fault String × Reading) × Option Fault × List Char :=
  match fuel with
  | 0 => ([], some .truncated, [])
  | fuel + 1 =>
    match s with
    | [] => ([(.error .truncated, .absent)], some .truncated, [])
    | '"' :: s =>
      let (name, stop, rest) := readText s
      match stop with
      | some f => ([(name, .broken f)], some f, rest)
      | none =>
        match skipBlanks rest with
        | ':' :: s =>
          let (value, rest) := readValue fuel s
          match value.stop with
          | some f => ([(name, value)], some f, rest)
          | none =>
            let (members, stop, rest) := readMembers fuel false rest
            ((name, value) :: members, stop, rest)
        | [] => ([(name, .absent)], some .truncated, [])
        | _ :: s => ([(name, .broken .malformed)], some .malformed, s)
    | s => ([(.error .malformed, .broken .malformed)], some .malformed, s)

end

/-- **Reads a text**: the value it begins with, and what comes after it.
No value, item or member is begun without a character of its own, and
each of them takes three steps at most. -/
def Reading.ofText (s : List Char) : Reading × List Char :=
  let (reading, rest) := readValue (3 * s.length + 3) s
  (reading, skipBlanks rest)

/-! ## The value read -/

namespace Reading

mutual

/-- **The value of a reading**, with `room` levels of nesting at most. -/
def toJson (room : Nat) : Reading → Except Fault Json
  | .absent => throw .truncated
  | .string used _ => used.map .string
  | .scalar used _ => used.map fun
    | .null => .null
    | .bool b => .bool b
    | .number n => .number n
  | .array items stop => do
    if room = 0 then throw .malformed
    let items ← itemsToJson (room - 1) items
    match stop with
    | none => pure (.array items)
    | some f => throw f
  | .object members stop => do
    if room = 0 then throw .malformed
    let members ← membersToJson (room - 1) members
    match stop with
    | none => pure (.object members)
    | some f => throw f

/-- The values of items. -/
def itemsToJson (room : Nat) : List Reading → Except Fault (List Json)
  | [] => pure []
  | item :: items => do
    let value ← item.toJson room
    let values ← itemsToJson room items
    pure (value :: values)

/-- The values of members. -/
def membersToJson (room : Nat) :
    List (Except Fault String × Reading) → Except Fault (List (String × Json))
  | [] => pure []
  | (name, value) :: members => do
    let name ← name
    let value ← value.toJson room
    let values ← membersToJson room members
    pure ((name, value) :: values)

end

/-- How deep a text may nest values whose shape is not known beforehand. -/
def nestingLimit : Nat := 127

end Reading

/-- **The value of a whole text.** -/
def Json.ofText (s : List Char) : Except Fault Json := do
  let (reading, rest) := Reading.ofText s
  let value ← reading.toJson Reading.nestingLimit
  if rest.isEmpty then pure value else throw .malformed

end Academy
