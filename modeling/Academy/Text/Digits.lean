/-!
# Digits

Numerals of decimal digits: how long they are, what they are worth, and
which of them name a number of 64 bits. Leading zeros are allowed, and
so is a plus.

Numerals of hexadecimal digits have a fixed width: they are written in
small letters with zeros in front, and read in letters of either case.
-/

namespace Academy

/-! ## Decimal digits -/

/-- A text cut after its leading digits. -/
def splitDigits (s : List Char) : List Char × List Char :=
  (s.takeWhile Char.isDigit, s.dropWhile Char.isDigit)

/-- The whole number that digits write. -/
def digitsValue (s : List Char) : Nat :=
  s.foldl (fun n c => 10 * n + (c.toNat - '0'.toNat)) 0

/-- A text as an optional sign and the rest; the sign is `true` for a
minus. -/
def splitSign : List Char → Bool × List Char
  | '-' :: s => (true, s)
  | '+' :: s => (false, s)
  | s => (false, s)

/-- The value of a text that consists of digits, of which there is one at
least. -/
def digitsOnly? (s : List Char) : Option Nat :=
  if s ≠ [] ∧ s.all Char.isDigit then some (digitsValue s) else none

/-- **A natural number of 64 bits**: digits after an optional plus. -/
def natOfText? (s : List Char) : Option Nat := do
  let n ← digitsOnly? (match s with
    | '+' :: s => s
    | s => s)
  if n < UInt64.size then some n else none

/-- A whole number, if it fits 64 bits with its sign. -/
def signed? (n : Int) : Option Int :=
  if Int64.minValue.toInt ≤ n ∧ n ≤ Int64.maxValue.toInt then some n else none

/-- **A whole number of 64 bits with its sign**: digits after an optional
sign. -/
def intOfText? (s : List Char) : Option Int := do
  let (negative, digits) := splitSign s
  let n ← digitsOnly? digits
  signed? (if negative then -n else n)

/-! ## Hexadecimal digits -/

/-- The digit of a value below sixteen. -/
def hexDigit (n : Nat) : Char :=
  if n < 10 then Char.ofNat ('0'.toNat + n) else Char.ofNat ('a'.toNat + (n - 10))

/-- The value of a digit. -/
def hexDigitValue? (c : Char) : Option Nat :=
  if '0' ≤ c ∧ c ≤ '9' then some (c.toNat - '0'.toNat)
  else if 'a' ≤ c ∧ c ≤ 'f' then some (c.toNat - 'a'.toNat + 10)
  else if 'A' ≤ c ∧ c ≤ 'F' then some (c.toNat - 'A'.toNat + 10)
  else none

/-- The last `width` digits of a number. -/
def hexDigits : (width : Nat) → Nat → List Char
  | 0, _ => []
  | width + 1, n => hexDigits width (n / 16) ++ [hexDigit (n % 16)]

/-- Reads digits in continuation of a number. -/
def hexValueFrom? (n : Nat) : List Char → Option Nat
  | [] => some n
  | c :: s => (hexDigitValue? c).bind fun d => hexValueFrom? (16 * n + d) s

/-- The number that digits write. -/
def hexValue? (s : List Char) : Option Nat :=
  hexValueFrom? 0 s

end Academy
