import Academy.Text.Digits

/-!
# TOML strings and keys

Strings stand between quotes, with escapes, or between apostrophes,
without any; three of either begin a string of several lines. A line may
end with a line feed or with a carriage return and a line feed, and a
string holds the ends of its lines as they are written. No control
character other than the tab may stand anywhere.
-/

namespace Academy.Toml

/-- Whether a character may stand in a string or a comment. -/
def isPlain (c : Char) : Bool :=
  c = '\t' || (0x20 ≤ c.toNat && c.toNat ≠ 0x7F)

/-! ## Blanks and comments -/

/-- Whether a character is blank within a line. -/
def isLineBlank (c : Char) : Bool :=
  c = ' ' || c = '\t'

/-- Passes over the blanks within a line. -/
def skipLineBlanks (s : List Char) : List Char :=
  s.dropWhile isLineBlank

/-- Passes over a comment, if there is one. -/
def skipComment : List Char → List Char
  | '#' :: s => s.dropWhile isPlain
  | s => s

/-- Passes over the end of a line. The end of the text is one too. -/
def endLine? : List Char → Option (List Char)
  | '\n' :: s => some s
  | '\r' :: '\n' :: s => some s
  | [] => some []
  | _ => none

/-- Passes over blanks, comments and ends of lines; `inComment` is whether a
comment has begun. -/
def skipLines (inComment : Bool) : List Char → List Char
  | '\n' :: s => skipLines false s
  | '\r' :: '\n' :: s => skipLines false s
  | c :: s =>
    if inComment then if isPlain c then skipLines true s else c :: s
    else if isLineBlank c then skipLines false s
    else if c = '#' then skipLines true s
    else c :: s
  | [] => []

/-! ## Strings -/

/-- The character of an escape of one letter. -/
def escaped? (c : Char) : Option Char :=
  if c = '"' ∨ c = '\\' then some c
  else if c = 'b' then some (Char.ofNat 0x8)
  else if c = 't' then some '\t'
  else if c = 'n' then some '\n'
  else if c = 'f' then some (Char.ofNat 0xC)
  else if c = 'r' then some '\r'
  else if c = 'e' then some (Char.ofNat 0x1B)
  else none

/-- The character of hexadecimal digits, if there is one. -/
def hexChar? (digits : List Char) : Option Char := do
  let n ← hexValue? digits
  if n.isValidChar then some (Char.ofNat n) else none

/-- **Reads a string with escapes** up to its quote. -/
def readBasic : List Char → Option (List Char × List Char)
  | [] => none
  | '"' :: s => some ([], s)
  | '\\' :: 'x' :: a :: b :: s => do
    let c ← hexChar? [a, b]
    let (text, rest) ← readBasic s
    pure (c :: text, rest)
  | '\\' :: 'u' :: a :: b :: c :: d :: s => do
    let c ← hexChar? [a, b, c, d]
    let (text, rest) ← readBasic s
    pure (c :: text, rest)
  | '\\' :: 'U' :: a :: b :: c :: d :: e :: f :: g :: h :: s => do
    let c ← hexChar? [a, b, c, d, e, f, g, h]
    let (text, rest) ← readBasic s
    pure (c :: text, rest)
  | '\\' :: c :: s => do
    let c ← escaped? c
    let (text, rest) ← readBasic s
    pure (c :: text, rest)
  | c :: s => do
    if c ≠ '\\' ∧ isPlain c then
      let (text, rest) ← readBasic s
      pure (c :: text, rest)
    else none

/-- **Reads a string without escapes** up to its apostrophe. -/
def readLiteral : List Char → Option (List Char × List Char)
  | [] => none
  | '\'' :: s => some ([], s)
  | c :: s => do
    if isPlain c then
      let (text, rest) ← readLiteral s
      pure (c :: text, rest)
    else none

/-- The quotes that end a string of several lines: three of them, after two
that belong to it at most. -/
def closing? (quote : Char) (s : List Char) : Option (List Char × List Char) :=
  let run := (s.takeWhile (· = quote)).length
  if run < 3 then none
  else some (List.replicate (min run 5 - 3) quote, s.drop (min run 5))

/-- Whether nothing but blanks stand before the end of the line. -/
def endsLine (s : List Char) : Bool :=
  match skipLineBlanks s with
  | '\n' :: _ => true
  | '\r' :: '\n' :: _ => true
  | _ => false

/-- **Reads a string of several lines with escapes** up to its quotes. After
a backslash at the end of a line, `trims` is set and all blanks and ends
of lines are passed over. -/
def readBasicLines (trims : Bool) (s : List Char) : Option (List Char × List Char) :=
  match s with
  | [] => none
  | '\n' :: s => do
    let (text, rest) ← readBasicLines trims s
    pure (if trims then text else '\n' :: text, rest)
  | '\r' :: '\n' :: s => do
    let (text, rest) ← readBasicLines trims s
    pure (if trims then text else '\r' :: '\n' :: text, rest)
  | '\\' :: 'x' :: a :: b :: s => do
    let c ← hexChar? [a, b]
    let (text, rest) ← readBasicLines false s
    pure (c :: text, rest)
  | '\\' :: 'u' :: a :: b :: c :: d :: s => do
    let c ← hexChar? [a, b, c, d]
    let (text, rest) ← readBasicLines false s
    pure (c :: text, rest)
  | '\\' :: 'U' :: a :: b :: c :: d :: e :: f :: g :: h :: s => do
    let c ← hexChar? [a, b, c, d, e, f, g, h]
    let (text, rest) ← readBasicLines false s
    pure (c :: text, rest)
  | '\\' :: c :: s =>
    if endsLine (c :: s) then readBasicLines true (c :: s)
    else do
      let c ← escaped? c
      let (text, rest) ← readBasicLines false s
      pure (c :: text, rest)
  | c :: s =>
    if trims && isLineBlank c then readBasicLines true s
    else
      match (if c = '"' then closing? '"' (c :: s) else none) with
      | some closed => some closed
      | none => do
        if c ≠ '\\' ∧ isPlain c then
          let (text, rest) ← readBasicLines false s
          pure (c :: text, rest)
        else none

/-- **Reads a string of several lines without escapes** up to its
apostrophes. -/
def readLiteralLines : List Char → Option (List Char × List Char)
  | [] => none
  | '\r' :: '\n' :: s => do
    let (text, rest) ← readLiteralLines s
    pure ('\r' :: '\n' :: text, rest)
  | c :: s =>
    match (if c = '\'' then closing? '\'' (c :: s) else none) with
    | some closed => some closed
    | none => do
      if c = '\n' ∨ isPlain c then
        let (text, rest) ← readLiteralLines s
        pure (c :: text, rest)
      else none

/-- A text without the end of the line that it begins with. -/
def withoutFirstEnd : List Char → List Char
  | '\n' :: s => s
  | '\r' :: '\n' :: s => s
  | s => s

/-- **Reads a string**; none where there is no quote. -/
def readString? : List Char → Option (List Char × List Char)
  | '"' :: '"' :: '"' :: s => readBasicLines false (withoutFirstEnd s)
  | '"' :: s => readBasic s
  | '\'' :: '\'' :: '\'' :: s => readLiteralLines (withoutFirstEnd s)
  | '\'' :: s => readLiteral s
  | _ => none

/-! ## Keys -/

/-- Whether a character may stand in a key without quotes. -/
def isKeyChar (c : Char) : Bool :=
  c.isAlphanum || c = '_' || c = '-'

/-- Reads a key without dots. -/
def readSimpleKey? (s : List Char) : Option (String × List Char) :=
  match s with
  | '"' :: s => (readBasic s).map fun (key, rest) => (String.ofList key, rest)
  | '\'' :: s => (readLiteral s).map fun (key, rest) => (String.ofList key, rest)
  | s =>
    let key := s.takeWhile isKeyChar
    if key.isEmpty then none else some (String.ofList key, s.dropWhile isKeyChar)

/-- How many names a key consists of at most. -/
def keyLimit : Nat := 80

/-- Reads a key of at most `room` names. -/
def readKeyWithin? : (room : Nat) → List Char → Option (List String × List Char)
  | 0, _ => none
  | room + 1, s => do
    let (key, rest) ← readSimpleKey? (skipLineBlanks s)
    match skipLineBlanks rest with
    | '.' :: rest =>
      let (keys, rest) ← readKeyWithin? room rest
      pure (key :: keys, rest)
    | rest => pure ([key], rest)

/-- **Reads a key** with dots, around which blanks may stand, as the names
that it consists of. -/
def readKey? (s : List Char) : Option (List String × List Char) :=
  readKeyWithin? keyLimit s

end Academy.Toml
