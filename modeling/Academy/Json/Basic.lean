import Academy.Binary64.Decimal
import Academy.Text.Digits

/-!
# JSON values and their text

Values as the files hold them. Members keep their order, and a name may
be repeated: what a repetition means is for the reader of the value to
say. A number is a natural number of 64 bits, a negative whole number of
64 bits, or a binary64 number, and which of them it is is part of the
value – `1` is not `1.0`.

The text is the compact one: no blanks, the escapes that are necessary
and no others, and the fewest digits that read back.
-/

namespace Academy

/-- A number of a JSON text. -/
inductive JsonNumber
  /-- A natural number. -/
  | natural (n : Nat)
  /-- A negative whole number, by its magnitude. -/
  | negative (n : Nat)
  /-- Any other number. -/
  | real (x : Binary64)
deriving DecidableEq

/-- **A JSON value.** -/
inductive Json
  | null
  | bool (b : Bool)
  | number (n : JsonNumber)
  | string (s : String)
  | array (items : List Json)
  | object (members : List (String × Json))

namespace Json

/-- A natural number as a value. -/
def nat (n : Nat) : Json := .number (.natural n)

/-- **The layout of numbers**: plain from `0.00001` to below `10 ^ 16`,
whole numbers with `.0`, the even one of two equally near decimals. -/
def numberStyle : DecimalStyle := ⟨.even, some (-5, 15), true⟩

/-! ## Writing -/

/-- The text of a binary64 number; one that is not finite has none and is
written as `null`. -/
def realText (x : Binary64) : List Char :=
  if x.isFinite then numberStyle.text x else ['n', 'u', 'l', 'l']

/-- The text of a number. -/
def numberText : JsonNumber → List Char
  | .natural n => Nat.toDigits 10 n
  | .negative n => '-' :: Nat.toDigits 10 n
  | .real x => realText x

/-- A character within a string: quotes, backslashes and controls are
escaped, the controls that have one by their letter. -/
def escapedChar (c : Char) : List Char :=
  if c = '"' then ['\\', '"']
  else if c = '\\' then ['\\', '\\']
  else if c.toNat = 0x8 then ['\\', 'b']
  else if c.toNat = 0xC then ['\\', 'f']
  else if c = '\n' then ['\\', 'n']
  else if c = '\r' then ['\\', 'r']
  else if c = '\t' then ['\\', 't']
  else if c.toNat < 0x20 then '\\' :: 'u' :: hexDigits 4 c.toNat
  else [c]

/-- The text of a string. -/
def stringText (s : String) : List Char :=
  '"' :: s.toList.flatMap escapedChar ++ ['"']

mutual

/-- **The text of a value.** -/
def text : Json → List Char
  | .null => ['n', 'u', 'l', 'l']
  | .bool b => if b then ['t', 'r', 'u', 'e'] else ['f', 'a', 'l', 's', 'e']
  | .number n => numberText n
  | .string s => stringText s
  | .array items => '[' :: itemsText items
  | .object members => '{' :: membersText members

/-- The items of an array with commas between them, up to the bracket. -/
def itemsText : List Json → List Char
  | [] => [']']
  | [item] => item.text ++ [']']
  | item :: items => item.text ++ ',' :: itemsText items

/-- The members of an object with commas between them, up to the brace. -/
def membersText : List (String × Json) → List Char
  | [] => ['}']
  | [(name, value)] => stringText name ++ ':' :: value.text ++ ['}']
  | (name, value) :: members => stringText name ++ ':' :: value.text ++ ',' :: membersText members

end

/-! ## Writing piece by piece -/

/-- The characters within a string in pieces, after the reversed beginning of the
first: those that stand for themselves go together, an escape goes alone. -/
def escapedPieces (run : List Char) : List Char → List (List Char)
  | [] => if run.isEmpty then [] else [run.reverse]
  | c :: s =>
    if escapedChar c = [c] then escapedPieces (c :: run) s
    else (if run.isEmpty then [] else [run.reverse]) ++ escapedChar c :: escapedPieces [] s

/-- The text of a string in pieces. -/
def stringPieces (s : String) : List (List Char) :=
  ['"'] :: escapedPieces [] s.toList ++ [['"']]

mutual

/-- **The text of a value in the pieces in which it is written**: every mark by
itself, a number or a word as a whole. -/
def pieces : Json → List (List Char)
  | .null => [['n', 'u', 'l', 'l']]
  | .bool b => [if b then ['t', 'r', 'u', 'e'] else ['f', 'a', 'l', 's', 'e']]
  | .number n => [numberText n]
  | .string s => stringPieces s
  | .array items => ['['] :: itemsPieces items
  | .object members => ['{'] :: membersPieces members

/-- The items of an array in pieces. -/
def itemsPieces : List Json → List (List Char)
  | [] => [[']']]
  | [item] => item.pieces ++ [[']']]
  | item :: items => item.pieces ++ [','] :: itemsPieces items

/-- The members of an object in pieces. -/
def membersPieces : List (String × Json) → List (List Char)
  | [] => [['}']]
  | [(name, value)] => stringPieces name ++ [':'] :: value.pieces ++ [['}']]
  | (name, value) :: members =>
    stringPieces name ++ [':'] :: value.pieces ++ [','] :: membersPieces members

end

end Json

end Academy
