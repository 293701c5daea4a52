/-!
# Binary64 numbers

Prices, ratings, grades and sampling weights are numbers of the binary64
format, and their last bit shows in what is written. A finite number is
kept here as what it *is*: a sign, a significand and a power of two,
counted in units of the least positive number `2 ^ -1074`. Counting in
that unit leaves every finite number a whole number (`scaled`), so an
operation is a computation on whole numbers followed by one rounding
(`round`), and nothing is said about words or bit fields.

The condition `Canonical` singles out one representation per number:
equality of representations is equality of numbers, the two zeros apart,
which differ in their sign and are `equal` all the same.
-/

namespace Academy

/-- **The finite magnitudes**, as significand times power of two: at most
53 digits, all 53 of them unless the power is the least. -/
def Binary64.Canonical (significand power : Nat) : Prop :=
  significand < Nat.pow 2 53 ∧ power ≤ 2045 ∧ (Nat.pow 2 52 ≤ significand ∨ power = 0)

instance (m p : Nat) : Decidable (Binary64.Canonical m p) :=
  inferInstanceAs (Decidable (_ ∧ _ ∧ (_ ∨ _)))

/-- **A binary64 number.** -/
inductive Binary64
  /-- `significand * 2 ^ power` units of `2 ^ -1074`, with a sign. -/
  | finite (negative : Bool) (significand power : Nat)
      (canonical : Binary64.Canonical significand power)
  /-- What a magnitude beyond the largest finite one is rounded to. -/
  | infinite (negative : Bool)
  /-- The result of an operation without a value. -/
  | nan
deriving DecidableEq

namespace Binary64

/-- How many units make one: a number of more than three hundred digits, which is
not to be written out in a proof. -/
@[irreducible] def one : Nat := Nat.pow 2 1074

/-- Zero of either sign. -/
def zero (negative : Bool) : Binary64 :=
  .finite negative 0 0 (by decide)

instance : Inhabited Binary64 := ⟨zero false⟩

/-- The magnitude of a finite number, in units. -/
def magnitude : Binary64 → Nat
  | .finite _ m p _ => m * Nat.pow 2 p
  | _ => 0

/-- Whether the sign is the negative one; not a number has none. -/
def isNegative : Binary64 → Bool
  | .finite s _ _ _ => s
  | .infinite s => s
  | .nan => false

/-- Whether the number is finite. -/
def isFinite : Binary64 → Bool
  | .finite .. => true
  | _ => false

/-- The value of a finite number, in units. -/
def scaled (x : Binary64) : Int :=
  if x.isNegative then -(x.magnitude : Int) else x.magnitude

/-! ## Rounding -/

/-- **The whole number nearest a quotient**, the even one of two equally
near. -/
def halfEven (num den : Nat) : Nat :=
  let q := num / den
  let r := num % den
  if 2 * r < den ∨ (2 * r = den ∧ q % 2 = 0) then q else q + 1

/-- A significand and a power as a number: a significand that has grown
to 54 digits carries into the power, and what is too large is infinite. -/
def pack (negative : Bool) (significand power : Nat) : Binary64 :=
  if h : Canonical significand power then .finite negative significand power h
  else if h : Canonical (significand / 2) (power + 1) then
    .finite negative (significand / 2) (power + 1) h
  else .infinite negative

/-- **The number nearest `num / den` units**, the one with the even
significand of two equally near: `num / den` is cut to 53 digits, or to
whole units where it has fewer. -/
def round (negative : Bool) (num den : Nat) : Binary64 :=
  let power := (num / den).log2 - 52
  pack negative (halfEven num (den * Nat.pow 2 power)) power

/-- The number nearest a signed quotient of units; an exact zero takes
the sign given for it. -/
def roundInt (negativeZero : Bool) (num : Int) (den : Nat) : Binary64 :=
  round (if num = 0 then negativeZero else num < 0) num.natAbs den

/-- The number nearest a whole number. -/
def ofNat (n : Nat) : Binary64 :=
  round false (n * one) 1

/-- The number nearest `digits * 10 ^ exponent`. Exponents whose power of
ten decides the result alone are answered without computing it: a
positive whole number times `10 ^ 400` is beyond every finite number,
and one of `log2 n + 1` binary digits is below `10 ^ (log2 n + 1)`. -/
def ofDecimal (negative : Bool) (digits : Nat) (exponent : Int) : Binary64 :=
  if digits = 0 then zero negative
  else if 400 < exponent then .infinite negative
  else if exponent < -(401 + digits.log2 : Int) then zero negative
  else if 0 ≤ exponent then round negative (digits * Nat.pow 10 exponent.toNat * one) 1
  else round negative (digits * one) (Nat.pow 10 (-exponent).toNat)

instance (n : Nat) : OfNat Binary64 n := ⟨ofNat n⟩

instance : OfScientific Binary64 where
  ofScientific digits fraction places :=
    ofDecimal false digits (if fraction then -(places : Int) else places)

/-! ## Arithmetic -/

/-- The number with the opposite sign. -/
def neg : Binary64 → Binary64
  | .finite s m p h => .finite (!s) m p h
  | .infinite s => .infinite (!s)
  | .nan => .nan

/-- The sum. An exact zero is positive unless both terms are negative
zeros. -/
def add : Binary64 → Binary64 → Binary64
  | .nan, _ => .nan
  | _, .nan => .nan
  | .infinite s, .infinite t => if s = t then .infinite s else .nan
  | .infinite s, _ => .infinite s
  | _, .infinite t => .infinite t
  | x, y => roundInt (x.isNegative && y.isNegative) (x.scaled + y.scaled) 1

/-- The difference. -/
def sub (x y : Binary64) : Binary64 :=
  x.add y.neg

/-- The product. -/
def mul : Binary64 → Binary64 → Binary64
  | .nan, _ => .nan
  | _, .nan => .nan
  | .finite s m _ _, .infinite t => if m = 0 then .nan else .infinite (s != t)
  | .infinite s, .finite t m _ _ => if m = 0 then .nan else .infinite (s != t)
  | .infinite s, .infinite t => .infinite (s != t)
  | x, y => round (x.isNegative != y.isNegative) (x.magnitude * y.magnitude) one

/-- The quotient. -/
def div : Binary64 → Binary64 → Binary64
  | .nan, _ => .nan
  | _, .nan => .nan
  | .infinite _, .infinite _ => .nan
  | .infinite s, .finite t _ _ _ => .infinite (s != t)
  | .finite s _ _ _, .infinite t => zero (s != t)
  | .finite s m p _, .finite t n q _ =>
    if n = 0 then (if m = 0 then .nan else .infinite (s != t))
    else round (s != t) (m * Nat.pow 2 p * one) (n * Nat.pow 2 q)

instance : Neg Binary64 := ⟨neg⟩
instance : Add Binary64 := ⟨add⟩
instance : Sub Binary64 := ⟨sub⟩
instance : Mul Binary64 := ⟨mul⟩
instance : Div Binary64 := ⟨div⟩

/-! ## Order -/

/-- Whether `x` is at most `y`; nothing compares with not a number. -/
def le : Binary64 → Binary64 → Bool
  | .nan, _ => false
  | _, .nan => false
  | .infinite s, .infinite t => s || !t
  | .infinite s, _ => s
  | _, .infinite t => !t
  | x, y => decide (x.scaled ≤ y.scaled)

/-- Whether `x` and `y` are the same number, the two zeros included. -/
def equal (x y : Binary64) : Bool :=
  x.le y && y.le x

/-- Whether `x` is less than `y`. -/
def lt (x y : Binary64) : Bool :=
  x.le y && !y.le x

/-! ## Whole numbers -/

/-- How many ones the magnitude holds, a half counting as one more. -/
def wholes (x : Binary64) : Nat :=
  (2 * x.magnitude + one) / (2 * one)

/-- The whole number nearest, the one farther from zero of two equally
near, with the sign kept. -/
def toWhole : Binary64 → Binary64
  | .finite s m p h => round s ((Binary64.finite s m p h).wholes * one) 1
  | x => x

/-- The whole ones that the number holds, cut to `0 … limit`: negative
numbers and not a number hold none. -/
def floorWithin (limit : Nat) : Binary64 → Nat
  | .finite s m p _ => if s then 0 else min (m * Nat.pow 2 p / one) limit
  | .infinite s => if s then 0 else limit
  | .nan => 0

/-- The next number towards zero. -/
def towardsZero : Binary64 → Binary64
  | .finite s m p _ =>
    if m = 0 then zero s
    else if m = Nat.pow 2 52 ∧ p ≠ 0 then pack s (Nat.pow 2 53 - 1) (p - 1)
    else pack s (m - 1) p
  | .infinite s => .finite s (Nat.pow 2 53 - 1) 2045 (by decide)
  | .nan => .nan

/-! ## Decimal places

Amounts and ratings are rounded to a number of decimal places by scaling
with a power of ten, rounding to a whole number and scaling back. The
power is found by repeated squaring, and every step rounds, so for many
places the factor is not the power nearest to the true one. -/

/-- The powers of ten of a number of 32 bits, by squaring: the product of
the squares for the bits that are set. -/
def powerOfTen (n : Nat) : Binary64 :=
  ((List.range 32).foldl
    (fun (product, square) bit =>
      (if n.testBit bit then product * square else product, square * square))
    ((1 : Binary64), (10 : Binary64))).1

/-- What a number is scaled with for so many places, which may be negative. -/
def placesFactor (places : Int) : Binary64 :=
  if places < 0 then 1 / powerOfTen places.natAbs else powerOfTen places.natAbs

/-- **The number rounded to decimal places**, a half away from zero. -/
def roundTo (x : Binary64) (places : Int) : Binary64 :=
  (x * placesFactor places).toWhole / placesFactor places

end Binary64

end Academy
