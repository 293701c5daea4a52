import Academy.Binary64.Decimal
import Academy.Calendar.Instant

/-!
# The text of an instant

An instant is written as `2024-01-02T03:04:05.678Z`: in universal time,
to the millisecond, what is finer being dropped. Reading is more liberal.
The fraction may be missing or have any number of digits, of which nine
count; the letters may be small, and a space may stand for the `T`; and
an offset of hours and minutes may take the place of the `Z`.

Years have four digits. A year outside `0000 … 9999` is written with its
sign and not read back, so what is written is read back within those
years only.
-/

namespace Academy

/-! ## Writing -/

/-- A number in decimal with zeros in front, `width` digits at least. -/
def paddedDigits (width n : Nat) : List Char :=
  let digits := Nat.toDigits 10 n
  List.replicate (width - digits.length) '0' ++ digits

/-- A year: four digits, and outside of them a sign. -/
def yearText (year : Int) : List Char :=
  if 0 ≤ year ∧ year ≤ 9999 then paddedDigits 4 year.toNat
  else (if year < 0 then '-' else '+') :: paddedDigits 4 year.natAbs

/-- A date as `2024-01-02`. -/
def Date.text (d : Date) : List Char :=
  yearText d.year ++ '-' :: paddedDigits 2 d.month ++ '-' :: paddedDigits 2 d.day

namespace Instant

/-- The day of an instant, in the numbering of dates. -/
def day (t : Instant) : Int :=
  t.seconds / daySeconds + Date.daysBeforeYear 1970

/-- The second of the day. -/
def secondOfDay (t : Instant) : Nat :=
  (t.seconds % daySeconds).toNat

/-- **The text of an instant.** A leap second is written as second 60. -/
def text (t : Instant) : List Char :=
  let s := t.secondOfDay
  let second := s % 60 + if t.isLeap then 1 else 0
  (Date.ofDays t.day).text ++ 'T' :: paddedDigits 2 (s / 3600) ++
    ':' :: paddedDigits 2 (s / 60 % 60) ++ ':' :: paddedDigits 2 second ++
    '.' :: paddedDigits 3 (t.nanos % 1000000000 / 1000000) ++ ['Z']

end Instant

/-! ## Reading -/

/-- Reads a number of exactly `width` digits. -/
def readDigits? (width : Nat) (s : List Char) : Option (Nat × List Char) :=
  let digits := s.take width
  if digits.length = width ∧ digits.all Char.isDigit then
    some (digitsValue digits, s.drop width)
  else none

/-- Reads one of the given characters. -/
def readOneOf? (allowed : List Char) : List Char → Option (List Char)
  | c :: s => if c ∈ allowed then some s else none
  | [] => none

/-- Reads a date. -/
def Date.read? (s : List Char) : Option (Date × List Char) := do
  let (year, s) ← readDigits? 4 s
  let s ← readOneOf? ['-'] s
  let (month, s) ← readDigits? 2 s
  let s ← readOneOf? ['-'] s
  let (day, s) ← readDigits? 2 s
  let date : Date := ⟨year, month, day⟩
  if date.isValid then some (date, s) else none

/-- Reads an hour, a minute and a second, which may be 60. -/
def readTimeOfDay? (s : List Char) : Option ((Nat × Nat × Nat) × List Char) := do
  let (hour, s) ← readDigits? 2 s
  let s ← readOneOf? [':'] s
  let (minute, s) ← readDigits? 2 s
  let s ← readOneOf? [':'] s
  let (second, s) ← readDigits? 2 s
  if hour ≤ 23 ∧ minute ≤ 59 ∧ second ≤ 60 then some ((hour, minute, second), s) else none

/-- Reads a fraction of a second in nanoseconds, where there is a point:
one digit at least, and nine at most that count. -/
def readFraction? : List Char → Option (Nat × List Char)
  | '.' :: s =>
    let (digits, s) := splitDigits s
    if digits = [] then none
    else some (digitsValue ((digits ++ List.replicate 9 '0').take 9), s)
  | s => some (0, s)

/-- Reads an offset from universal time, in seconds. The minus sign of
typography is as good as the hyphen. -/
def readOffset? : List Char → Option (Int × List Char)
  | 'Z' :: s => some (0, s)
  | 'z' :: s => some (0, s)
  | s => do
    let negative := s.head? ≠ some '+'
    let s ← readOneOf? ['+', '-', Char.ofNat 0x2212] s
    let (hours, s) ← readDigits? 2 s
    let s ← readOneOf? [':'] s
    let (minutes, s) ← readDigits? 2 s
    if hours ≤ 23 ∧ minutes ≤ 59 then
      let offset : Int := (hours * 60 + minutes : Nat) * 60
      some (if negative then -offset else offset, s)
    else none

/-- **Reads an instant.** A leap second may stand at the end of any
minute. -/
def Instant.ofText? (s : List Char) : Option Instant := do
  let (date, s) ← Date.read? s
  let s ← readOneOf? ['T', 't', ' '] s
  let ((hour, minute, second), s) ← readTimeOfDay? s
  let (nanos, s) ← readFraction? s
  let (offset, s) ← readOffset? s
  if s = [] then
    let leap := second = 60
    let timeOfDay := (hour * 60 + minute) * 60 + if leap then 59 else second
    let days := date.toDays - Date.daysBeforeYear 1970
    let seconds := days * Instant.daySeconds + timeOfDay - offset
    Instant.of? seconds (if leap then nanos + 1000000000 else nanos)
  else none

end Academy
