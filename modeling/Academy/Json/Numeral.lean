import Academy.Json.Basic

/-!
# Numerals of a JSON text

A numeral without point and exponent that fits 64 bits is a whole number.
Any other is a binary64 number, computed from at most 64 bits of digits
and one power of ten: the digits are rounded once, and multiplying by
the power or dividing by it rounds again. For up to fifteen digits and
small powers both steps are exact or correctly rounded; beyond that the
result may be a neighbour of the number nearest to the numeral, and which
one it is is fixed here.
-/

namespace Academy

/-- **A numeral**, by its parts. -/
structure Numeral where
  /-- Whether there is a minus sign. -/
  negative : Bool
  /-- The digits before the point. -/
  whole : List Char
  /-- The digits after the point, none where there is no point. -/
  fraction : List Char
  /-- The sign and the digits of the exponent, where there is one. -/
  exponent : Option (Bool × List Char)

namespace Numeral

/-- The value of a digit. -/
def digit (c : Char) : Nat :=
  c.toNat - '0'.toNat

/-- The digits that are taken into 64 bits in continuation of `n`, and how
many are left over, beginning with the first that does not fit. -/
def takeWhole (n : Nat) : List Char → Nat × Nat
  | [] => (n, 0)
  | c :: s =>
    if 10 * n + digit c < UInt64.size then takeWhole (10 * n + digit c) s else (n, s.length + 1)

/-- The powers of ten up to the greatest finite one. -/
def powerOfTen (k : Nat) : Binary64 :=
  .ofDecimal false 1 k

/-- Divides by `10 ^ k`, by a factor of `10 ^ 308` at a time where `k` is
greater, until nothing is left of the number; `rounds` bounds how often. -/
def divideByPower : (rounds : Nat) → Binary64 → Nat → Binary64
  | 0, x, _ => x
  | rounds + 1, x, k =>
    if k ≤ 308 then x / powerOfTen k
    else if x.magnitude = 0 then x
    else divideByPower rounds (x / powerOfTen 308) (k - 308)

/-- `digits * 10 ^ exponent` in two roundings; none where it is too large. -/
def scale (digits : Nat) (exponent : Int) : Option Binary64 :=
  let x := Binary64.ofNat digits
  if exponent < 0 then
    let k := (-exponent).toNat
    some (divideByPower (k / 308 + 1) x k)
  else if 308 < exponent then
    if digits = 0 then some x else none
  else
    let y := x * powerOfTen exponent.toNat
    if y.isFinite then some y else none

/-- The exponent written, within 32 bits; an exponent of more bits is as
good as infinite, and the result tells its sign. -/
def writtenExponent : Option (Bool × List Char) → Except Bool Int
  | none => .ok 0
  | some (negative, digits) =>
    let n := digitsValue digits
    if n ≤ Int32.maxValue.toNatClampNeg then .ok (if negative then -(n : Int) else n)
    else .error negative

/-- The magnitude as a binary64 number; none where it is too large. -/
def toReal (n : Numeral) : Option Binary64 :=
  let (digits, dropped) := takeWhole 0 n.whole
  let (digits, left) := takeWhole digits n.fraction
  let places : Int := (n.fraction.length - left : Nat)
  match writtenExponent n.exponent with
  | .ok e =>
    let exponent := (dropped : Int) - places + e
    scale digits (max Int32.minValue.toInt (min exponent Int32.maxValue.toInt))
  | .error negative => if negative ∨ digits = 0 then some (.zero false) else none

/-- Whether the numeral is written as a whole number. -/
def isWhole (n : Numeral) : Bool :=
  n.fraction.isEmpty && n.exponent.isNone

/-- **The number of a numeral**; none where it is too large. A negative
zero is a binary64 number even when it is written as a whole number. -/
def number? (n : Numeral) : Option JsonNumber :=
  let m := digitsValue n.whole
  if n.isWhole ∧ ¬ n.negative ∧ m < UInt64.size then some (.natural m)
  else if n.isWhole ∧ n.negative ∧ 0 < m ∧ (signed? (-m)).isSome then some (.negative m)
  else n.toReal.map fun x => .real (if n.negative then -x else x)

end Numeral

end Academy
