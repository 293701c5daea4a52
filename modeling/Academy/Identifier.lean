import Academy.Text.Digits

/-!
# Identifiers

A record is known by twelve bytes: the second at which it was made, five
bytes that the process chose once, and a counter of three bytes. As the
bytes are read from the most significant end, an identifier is a word of
96 bits, in which these parts follow each other, and the order of
identifiers is the order of numbers.

Where identifiers come from is a `Source`: what the process chose, where
its counter began, and what its clock showed at each use. The counter
has 32 bits and only its lower 24 are used, so it comes round, and
identifiers are told apart by the counter alone for `2 ^ 24` uses at
most.
-/

namespace Academy

/-- **What a record is known by.** -/
structure Identifier where
  /-- The twelve bytes as one number. -/
  bits : BitVec 96
deriving DecidableEq, Hashable

namespace Identifier

instance : Inhabited Identifier := ⟨⟨0⟩⟩

/-- The identifier with the given second, process bytes and counter. -/
def ofParts (second : BitVec 32) (process : BitVec 40) (counter : BitVec 24) : Identifier :=
  ⟨second ++ process ++ counter⟩

/-- The second at which the identifier was made. -/
def second (i : Identifier) : BitVec 32 :=
  i.bits.extractLsb' 64 32

/-- What the process chose. -/
def process (i : Identifier) : BitVec 40 :=
  i.bits.extractLsb' 24 40

/-- The counter. -/
def counter (i : Identifier) : BitVec 24 :=
  i.bits.extractLsb' 0 24

/-- The bytes, the most significant one first. -/
def bytes (i : Identifier) : List UInt8 :=
  (List.range 12).map fun n => ⟨i.bits.extractLsb' (8 * (11 - n)) 8⟩

/-- Smaller identifiers come first. -/
def compare (i j : Identifier) : Ordering :=
  Ord.compare i.bits.toNat j.bits.toNat

/-- **The text of an identifier**: 24 hexadecimal digits. -/
def hex (i : Identifier) : List Char :=
  hexDigits 24 i.bits.toNat

/-- The text as a string. -/
def text (i : Identifier) : String :=
  String.ofList i.hex

/-- **Reads an identifier**: exactly 24 hexadecimal digits of either case. -/
def ofText? (s : List Char) : Option Identifier :=
  if s.length = 24 then (hexValue? s).map fun n => ⟨BitVec.ofNat 96 n⟩ else none

/-- **Where identifiers come from.** -/
structure Source where
  /-- What the process chose. -/
  process : BitVec 40
  /-- Where the counter began. -/
  start : UInt32
  /-- The second that the clock showed at each use. -/
  clock : Nat → UInt32

namespace Source

/-- **The identifier of a use**, the first use being use `0`. -/
def identifier (source : Source) (use : Nat) : Identifier :=
  ofParts (source.clock use).toBitVec source.process
    ((source.start + UInt32.ofNat use).toBitVec.setWidth 24)

/-- The source after some uses. -/
def after (source : Source) (uses : Nat) : Source where
  process := source.process
  start := source.start + UInt32.ofNat uses
  clock use := source.clock (uses + use)

end Source

end Identifier

end Academy
