import Academy.Binary64.Decimal
import Academy.Calendar.Text
import Academy.Text.Digits
import Academy.Toml.Basic

/-!
# TOML numbers, truth values, dates and times

These values are words: runs of letters, digits and a few signs. What a
word is can be told from the word alone, except that a date and a time
may be separated by a space.

Numbers may have underscores between digits. A whole number has to fit
64 bits with its sign, and a number that is too large for its format is
refused.
-/

namespace Academy.Toml

/-! ## Numbers -/

/-- Digits of some kind without the underscores between them. -/
def plainDigits? (isDigit : Char → Bool) : List Char → Option (List Char)
  | [] => none
  | [c] => if isDigit c then some [c] else none
  | c :: '_' :: s => if isDigit c then (plainDigits? isDigit s).map (c :: ·) else none
  | c :: s => if isDigit c then (plainDigits? isDigit s).map (c :: ·) else none

/-- Decimal digits of a whole number, which do not begin with a zero. -/
def wholeDigits? (s : List Char) : Option (List Char) :=
  match plainDigits? Char.isDigit s with
  | some ('0' :: _ :: _) => none
  | digits => digits

/-- Whether a character is a digit to a base of at most sixteen. -/
def isDigitBelow (base : Nat) (c : Char) : Bool :=
  match hexDigitValue? c with
  | some n => n < base
  | none => false

/-- The whole number of digits to a base. -/
def digitsToBase? (base : Nat) (s : List Char) : Option Nat :=
  (plainDigits? (isDigitBelow base) s).map fun digits =>
    digits.foldl (fun n c => base * n + (hexDigitValue? c).getD 0) 0

/-- **A whole number**: to base 16, 8 or 2 without a sign, or decimal. -/
def integer? : List Char → Option Int
  | '0' :: 'x' :: s => (digitsToBase? 16 s).bind fun n => signed? n
  | '0' :: 'o' :: s => (digitsToBase? 8 s).bind fun n => signed? n
  | '0' :: 'b' :: s => (digitsToBase? 2 s).bind fun n => signed? n
  | s =>
    let (negative, s) := splitSign s
    (wholeDigits? s).bind fun digits =>
      signed? (if negative then -(digitsValue digits : Int) else digitsValue digits)

/-- The exponent of a number: an optional sign and digits. -/
def exponent? (s : List Char) : Option Int :=
  let (negative, s) := splitSign s
  (plainDigits? Char.isDigit s).map fun digits =>
    if negative then -(digitsValue digits : Int) else digitsValue digits

/-- A number with a point or an exponent, by its sign and the rest. -/
def decimal? (negative : Bool) (s : List Char) : Option Binary64 := do
  let isMark := fun c => c = 'e' || c = 'E'
  let (mantissa, power) := (s.takeWhile (!isMark ·), s.dropWhile (!isMark ·))
  let (whole, fraction) := (mantissa.takeWhile (· ≠ '.'), mantissa.dropWhile (· ≠ '.'))
  if power.isEmpty && fraction.isEmpty then none
  let whole ← wholeDigits? whole
  let fraction ← if fraction.isEmpty then some [] else plainDigits? Char.isDigit (fraction.drop 1)
  let exponent ← if power.isEmpty then some 0 else exponent? (power.drop 1)
  let digits := digitsValue (whole ++ fraction)
  let x := Binary64.ofDecimal negative digits (exponent - fraction.length)
  if x.isFinite then some x else none

/-- **A number of the binary64 format**, or one of the words for infinity
and for not a number. -/
def real? (s : List Char) : Option Binary64 :=
  let (negative, s) := splitSign s
  if s = ['i', 'n', 'f'] then some (.infinite negative)
  else if s = ['n', 'a', 'n'] then some .nan
  else decimal? negative s

/-! ## Dates and times -/

/-- Reads a fraction of a second, of which nine digits count; zeros at its
end are left out, but for the first digit. -/
def readFractionText? : List Char → Option (List Char × List Char)
  | '.' :: s =>
    let (digits, rest) := splitDigits s
    if digits.isEmpty then none
    else
      let kept := ((digits.take 9).reverse.dropWhile (· = '0')).reverse
      some ('.' :: (if kept.isEmpty then ['0'] else kept), rest)
  | s => some ([], s)

/-- Reads a time of day. Its seconds may be left out, and there may be a
second 60. -/
def readTimeText? (s : List Char) : Option (List Char × List Char) := do
  let (hour, s) ← readDigits? 2 s
  let s ← readOneOf? [':'] s
  let (minute, s) ← readDigits? 2 s
  if 23 < hour ∨ 59 < minute then none
  let text := paddedDigits 2 hour ++ ':' :: paddedDigits 2 minute
  match s with
  | ':' :: s =>
    let (second, s) ← readDigits? 2 s
    if 60 < second then none
    let (fraction, s) ← readFractionText? s
    pure (text ++ ':' :: paddedDigits 2 second ++ fraction, s)
  | s => pure (text, s)

/-- An offset from universal time, or nothing. -/
def offsetText? : List Char → Option (List Char)
  | [] => some []
  | ['Z'] => some ['Z']
  | ['z'] => some ['Z']
  | sign :: s => do
    let (hours, s) ← readDigits? 2 s
    let s ← readOneOf? [':'] s
    let (minutes, s) ← readDigits? 2 s
    if s ≠ [] ∨ (sign ≠ '+' ∧ sign ≠ '-') ∨ 23 < hours ∨ 59 < minutes then none
    let sign := if hours = 0 ∧ minutes = 0 then '+' else sign
    pure (sign :: paddedDigits 2 hours ++ ':' :: paddedDigits 2 minutes)

/-- **A date, a time or both**, as it is written out again. -/
def moment? (s : List Char) : Option (List Char) :=
  match Date.read? s with
  | some (date, []) => some date.text
  | some (date, c :: s) => do
    if c ≠ 'T' ∧ c ≠ 't' ∧ c ≠ ' ' then none
    let (time, s) ← readTimeText? s
    let offset ← offsetText? s
    pure (date.text ++ 'T' :: time ++ offset)
  | none =>
    match readTimeText? s with
    | some (time, []) => some time
    | _ => none

/-! ## Words -/

/-- Whether a character may stand in a word. -/
def isWordChar (c : Char) : Bool :=
  c.isAlphanum || c = '_' || c = '+' || c = '-' || c = '.' || c = ':'

/-- A word and the text after it. A date goes on after a space if a digit
follows. -/
def splitWord (s : List Char) : List Char × List Char :=
  let word := s.takeWhile isWordChar
  match s.dropWhile isWordChar with
  | ' ' :: c :: rest =>
    if c.isDigit && (Date.read? word).any (·.2.isEmpty) then
      (word ++ ' ' :: (c :: rest).takeWhile isWordChar, (c :: rest).dropWhile isWordChar)
    else (word, ' ' :: c :: rest)
  | rest => (word, rest)

/-- **The value of a word.** -/
def ofWord? (word : List Char) : Option Toml :=
  if word = ['t', 'r', 'u', 'e'] then some (.bool true)
  else if word = ['f', 'a', 'l', 's', 'e'] then some (.bool false)
  else
    match integer? word with
    | some n => some (.integer n)
    | none =>
      match real? word with
      | some x => some (.real x)
      | none => (moment? word).map fun text => .moment (String.ofList text)

end Academy.Toml
