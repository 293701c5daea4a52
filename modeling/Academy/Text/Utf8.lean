/-!
# UTF-8 with replacement

A settings file is read even where it is not UTF-8: each malformed part
of it is read as the replacement character. A malformed part is a byte
that begins no character, or as many bytes of a character as are there
before it breaks off.
-/

namespace Academy

/-- What a malformed part is read as. -/
def replacementChar : Char := Char.ofNat 0xFFFD

/-- How a first byte goes on: how many bytes follow, the bits that it
contributes, and the range of the byte right after it, which is where
overlong forms, surrogates and code points beyond the last are excluded. -/
def leadByte (b : Nat) : Option (Nat × Nat × Nat × Nat) :=
  if 0xC2 ≤ b ∧ b ≤ 0xDF then some (1, b - 0xC0, 0x80, 0xBF)
  else if b = 0xE0 then some (2, b - 0xE0, 0xA0, 0xBF)
  else if b = 0xED then some (2, b - 0xE0, 0x80, 0x9F)
  else if 0xE1 ≤ b ∧ b ≤ 0xEF then some (2, b - 0xE0, 0x80, 0xBF)
  else if b = 0xF0 then some (3, b - 0xF0, 0x90, 0xBF)
  else if b = 0xF4 then some (3, b - 0xF0, 0x80, 0x8F)
  else if 0xF1 ≤ b ∧ b ≤ 0xF3 then some (3, b - 0xF0, 0x80, 0xBF)
  else none

/-- A character that has been begun: how many bytes are missing, the bits
so far, and the range of the next byte. -/
structure OpenChar where
  /-- How many bytes are missing after the next one. -/
  missing : Nat
  /-- The bits of the bytes read. -/
  bits : Nat
  /-- The least next byte. -/
  least : Nat
  /-- The greatest next byte. -/
  greatest : Nat

/-- Reads a byte that begins a character. -/
def beginChar (b : Nat) : List Char × Option OpenChar :=
  if b < 0x80 then ([Char.ofNat b], none)
  else match leadByte b with
    | some (following, bits, least, greatest) => ([], some ⟨following - 1, bits, least, greatest⟩)
    | none => ([replacementChar], none)

/-- Reads bytes, given the character that has been begun. -/
def decodeFrom : Option OpenChar → List UInt8 → List Char
  | none, [] => []
  | some _, [] => [replacementChar]
  | none, b :: s =>
    let (chars, next) := beginChar b.toNat
    chars ++ decodeFrom next s
  | some c, b :: s =>
    if c.least ≤ b.toNat ∧ b.toNat ≤ c.greatest then
      let bits := c.bits * 64 + (b.toNat - 0x80)
      if c.missing = 0 then Char.ofNat bits :: decodeFrom none s
      else decodeFrom (some ⟨c.missing - 1, bits, 0x80, 0xBF⟩) s
    else
      let (chars, next) := beginChar b.toNat
      replacementChar :: chars ++ decodeFrom next s

/-- **The text of bytes**, with the replacement character for each part
that is not UTF-8. -/
def decodeReplacing (bytes : List UInt8) : List Char :=
  decodeFrom none bytes

end Academy
