import Academy.Binary64.Basic
import Academy.Text.Digits

/-!
# Decimal text of binary64 numbers

A number is written with the fewest decimal digits that read back as the
same number, and of those digits the ones nearest to it. The digits are
found by asking the reader itself: for one digit, two digits and so on,
the two neighbours of the number on that decimal grid are read, and the
first grid with a neighbour that reads back is taken. Whether what is
written reads back is then not a matter of analysis but the condition
under which it is chosen.

How the digits are laid out – where the exponent form begins, whether a
whole number shows a fraction – differs from one place of use to another
and is a `DecimalStyle`.
-/

namespace Academy

/-- `digits * 10 ^ exponent`. -/
structure Decimal where
  /-- The digits, as a whole number. -/
  digits : Nat
  /-- The place of the last digit. -/
  exponent : Int
deriving DecidableEq, Repr

/-- Which of two equally near decimals is written. -/
inductive Tie
  /-- The one whose last digit is even. -/
  | even
  /-- The greater one. -/
  | up
deriving DecidableEq, Repr

namespace Decimal

/-- The same value without zeros at the end, `room` of them at most. -/
def strip : (room : Nat) → Decimal → Decimal
  | 0, d => d
  | room + 1, d =>
    if d.digits ≠ 0 ∧ d.digits % 10 = 0 then strip room ⟨d.digits / 10, d.exponent + 1⟩ else d

/-- `num / den` as a quotient of whole numbers in units of
`10 ^ exponent`. -/
def onGrid (num den : Nat) (exponent : Int) : Nat × Nat :=
  if 0 ≤ exponent then (num, den * Nat.pow 10 exponent.toNat)
  else (num * Nat.pow 10 (-exponent).toNat, den)

/-- The place of the leading digit of a positive quotient: the greatest
`t` with `10 ^ t ≤ num / den`. It is the logarithm to base two times
`log₁₀ 2`, or one more. -/
def leadingPlace (num den : Nat) : Int :=
  let guess := (((num.log2 : Int) - den.log2 - 1) * 30103).fdiv 100000
  let reaches (t : Int) : Bool :=
    let (n, d) := onGrid num den t
    d ≤ n
  if reaches (guess + 2) then guess + 2 else if reaches (guess + 1) then guess + 1 else guess

end Decimal

namespace Binary64

/-- The neighbour on the grid of `10 ^ exponent` that reads back as `x`,
the nearer one where both do. -/
def readBackOn (tie : Tie) (x : Binary64) (exponent : Int) : Option Decimal :=
  let (num, den) := Decimal.onGrid x.magnitude one exponent
  let low := num / den
  let rest := num % den
  let reads (digits : Nat) : Bool := ofDecimal x.isNegative digits exponent = x
  let lowNearer := 2 * rest < den ∨ (2 * rest = den ∧ tie = .even ∧ low % 2 = 0)
  if reads low ∧ (lowNearer ∨ ¬ reads (low + 1)) then some ⟨low, exponent⟩
  else if reads (low + 1) then some ⟨low + 1, exponent⟩
  else none

/-- All the digits of a finite number: a unit is `5 ^ 1074` times
`10 ^ -1074`. -/
def exactDecimal (x : Binary64) : Decimal :=
  ⟨x.magnitude * Nat.pow 5 1074, -1074⟩

/-- **The fewest digits that read back** as the finite number `x`. -/
def shortest (tie : Tie) (x : Binary64) : Decimal :=
  let leading := Decimal.leadingPlace x.magnitude one
  let found := (List.range 17).findSome? fun (places : Nat) => x.readBackOn tie (leading - places)
  (found.getD x.exactDecimal).strip 800

end Binary64

/-- **How decimal digits are laid out.** -/
structure DecimalStyle where
  /-- Which of two equally near decimals is written. -/
  tie : Tie
  /-- The leading places that are written without an exponent, from the
  first to the last, or all of them. -/
  plain : Option (Int × Int)
  /-- Whether a whole number without an exponent is followed by `.0`. -/
  showsFraction : Bool

namespace DecimalStyle

/-- **The plain layout**: never an exponent, and a fraction only where there
is one. -/
def withoutExponent : DecimalStyle := ⟨.up, none, false⟩

/-- The digits with the point after the digit of place zero. -/
def positional (style : DecimalStyle) (d : Decimal) : List Char :=
  let digits := Nat.toDigits 10 d.digits
  if 0 ≤ d.exponent then
    digits ++ List.replicate d.exponent.toNat '0' ++
      (if style.showsFraction then ['.', '0'] else [])
  else
    let places := (-d.exponent).toNat
    let padded := List.replicate (places + 1 - digits.length) '0' ++ digits
    padded.take (padded.length - places) ++ '.' :: padded.drop (padded.length - places)

/-- One digit, the others after a point, and the exponent with its sign. -/
def scientific (d : Decimal) : List Char :=
  let digits := Nat.toDigits 10 d.digits
  let place := d.exponent + digits.length - 1
  let fraction := digits.drop 1
  digits.take 1 ++ (if fraction.isEmpty then [] else '.' :: fraction) ++
    'e' :: (if place < 0 then '-' else '+') :: Nat.toDigits 10 place.natAbs

/-- The digits of a positive number. -/
def layOut (style : DecimalStyle) (d : Decimal) : List Char :=
  let place := d.exponent + (Nat.toDigits 10 d.digits).length - 1
  match style.plain with
  | none => style.positional d
  | some (first, last) =>
    if first ≤ place ∧ place ≤ last then style.positional d else scientific d

/-- **The text of a number.** -/
def text (style : DecimalStyle) : Binary64 → List Char
  | .nan => ['N', 'a', 'N']
  | .infinite s => (if s then ['-'] else []) ++ ['i', 'n', 'f']
  | x => (if x.isNegative then ['-'] else []) ++
    (if x.magnitude = 0 then style.positional ⟨0, 0⟩ else style.layOut (x.shortest style.tie))

end DecimalStyle

/-! ## Reading -/

namespace Binary64

/-- The exponent at the end of a numeral: nothing, or `e` with an
optional sign and digits. -/
def exponentOfText? : List Char → Option Int
  | [] => some 0
  | c :: s =>
    if c = 'e' ∨ c = 'E' then
      let (negative, s) := splitSign s
      if s ≠ [] ∧ s.all Char.isDigit then
        some (if negative then -(digitsValue s : Int) else digitsValue s)
      else none
    else none

/-- **Reads a numeral**: an optional sign, then digits with an optional
fraction – a digit on one side of the point at least – and an optional
exponent, or one of the words for infinity and for not a number, in
letters of either case. -/
def ofText? (s : List Char) : Option Binary64 :=
  let (negative, s) := splitSign s
  let word := s.map Char.toLower
  if word = ['i', 'n', 'f'] ∨ word = ['i', 'n', 'f', 'i', 'n', 'i', 't', 'y'] then
    some (.infinite negative)
  else if word = ['n', 'a', 'n'] then some .nan
  else
    let (whole, s) := splitDigits s
    let (fraction, s) := match s with
      | '.' :: s => splitDigits s
      | s => ([], s)
    if whole = [] ∧ fraction = [] then none
    else (exponentOfText? s).map fun exponent =>
      ofDecimal negative (digitsValue (whole ++ fraction)) (exponent - fraction.length)

end Binary64

end Academy
