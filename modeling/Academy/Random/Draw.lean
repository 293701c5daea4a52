import Academy.Binary64.Basic
import Academy.Random.WordStream

/-!
# Draws

A draw reads words from the stream and makes a value of them, and it goes
on with the stream where it has left it. That is so even for a draw that
fails, and there are two ways to fail: a date can be drawn that lies
before the calendar begins, and more can be asked for than there is room
for.

A value from a range is drawn by multiplying a word with the size of the
range and taking the upper half of the product. The words whose lower
half lies beyond a `zone` are rejected, so that each value has the same
share of the words that are left. Less than half of the words are
rejected, and after `patience` rejections in a row the word is taken as it
is, which makes a draw total and is out of reach for any stream that
deserves the name.

Many numbers of a record are drawn from between two bounds, both of them
included. A `Span` is such a pair, so that the rule which draws a number
and the rule which checks it name the same bounds.
-/

namespace Academy

/-- **A span of natural numbers**, both ends included. -/
structure Span where
  /-- The least number. -/
  low : Nat
  /-- The greatest number. -/
  high : Nat
deriving DecidableEq, Repr

/-- Whether a number lies in the span. -/
def Span.contains (span : Span) (n : Nat) : Bool :=
  span.low ≤ n && n ≤ span.high

@[simp] theorem Span.contains_iff {span : Span} {n : Nat} :
    span.contains n = true ↔ span.low ≤ n ∧ n ≤ span.high := by
  simp [Span.contains]

/-- How many numbers lie in the span. -/
def Span.size (span : Span) : Nat :=
  span.high - span.low + 1

/-- **Why a draw fails.** -/
inductive DrawError
  /-- The date that was drawn lies before the calendar. -/
  | beforeCalendar
  /-- There is no room for as many records. -/
  | memory
deriving DecidableEq, Repr

/-- **A draw** of a value. -/
abbrev Draw (α : Type) := ExceptT DrawError (StateM WordStream) α

namespace Draw

variable {α : Type}

/-- Draws from a stream: the value, and the stream after it. -/
def readFrom (draw : Draw α) (stream : WordStream) : Except DrawError α × WordStream :=
  (ExceptT.run draw).run stream

/-! ## Words -/

/-- A word. -/
def word : Draw Nat := do
  let stream ← getThe WordStream
  let (w, stream) := stream.next
  set stream
  pure w.toNat

/-- A number of 64 bits: two words, the low one first. -/
def wide : Draw Nat := do
  let low ← word
  let high ← word
  pure (low + high * UInt32.size)

/-! ## Ranges -/

/-- How many words in a row are rejected at most. -/
def patience : Nat := 65536

/-- Draws below `size` from numbers of `bits` bits, with the lower half of
the product at most `zone`. -/
def scaled (draw : Draw Nat) (bits size zone : Nat) : (patience : Nat) → Draw Nat
  | 0 => do
    let v ← draw
    pure (v * size / Nat.pow 2 bits)
  | patience + 1 => do
    let v ← draw
    if v * size % Nat.pow 2 bits ≤ zone then pure (v * size / Nat.pow 2 bits)
    else scaled draw bits size zone patience

/-- The zone that rejects as few numbers as possible: as many are kept as
the size divides. -/
def sharpZone (bits size : Nat) : Nat :=
  Nat.pow 2 bits - 1 - (Nat.pow 2 bits - size) % size

/-- The zone that is found without a division: the greatest multiple of the
size by a power of two that fits. -/
def quickZone (bits size : Nat) : Nat :=
  size * Nat.pow 2 (bits - 1 - size.log2) - 1

/-- **A number of a span**, where numbers of 8 or 16 bits are meant. -/
def short (span : Span) : Draw Nat := do
  let n ← scaled word 32 span.size (sharpZone 32 span.size) patience
  pure (span.low + n)

/-- **A number of a span**, where numbers of 32 bits are meant. -/
def within (span : Span) : Draw Nat := do
  let n ← scaled word 32 span.size (quickZone 32 span.size) patience
  pure (span.low + n)

/-- A number of 64 bits from zero to `high`. -/
def wideUpTo (high : Nat) : Draw Nat :=
  let size := high + 1
  scaled wide 64 size (quickZone 64 size) patience

/-! ## Choices -/

/-- **A place of a list** of so many items: one word is drawn for it, if the places
can be counted with a word. -/
def place (length : Nat) : Draw Nat :=
  if length < UInt32.size then within ⟨0, length - 1⟩ else wideUpTo (length - 1)

/-- **One of the items of a list** that has some, each with the same chance. -/
def pick (items : List α) (some_items : 0 < items.length) : Draw α := do
  let n ← place items.length
  pure (items[n]?.getD items[0])

/-- One of the items of a list; where it has none, nothing is read. -/
def choose (items : List α) : Draw (Option α) :=
  if h : 0 < items.length then some <$> pick items h else pure none

/-- Whether something of the given probability happens. -/
def chance (probability : Binary64) : Draw Bool := do
  let threshold := (probability * Binary64.ofNat UInt64.size).floorWithin (UInt64.size - 1)
  let n ← wide
  pure (n < threshold)

/-- A multiple of `2 ^ -52` from zero to below one. -/
def fraction : Draw Binary64 := do
  let n ← wide
  pure (.round false (n / Nat.pow 2 12 * Nat.pow 2 1022) 1)

/-- The greatest fraction that is drawn. -/
def greatestFraction : Binary64 :=
  .round false ((Nat.pow 2 52 - 1) * Nat.pow 2 1022) 1

/-! ## Dates -/

/-- **How far back a date lies**, in days: `most` days at most, and as far as
the calendar goes, which reaches `reach` days back. -/
def daysBack (reach most : Nat) : Draw Nat := do
  let days ← wideUpTo most
  if days ≤ reach then pure days else throw .beforeCalendar

end Draw

end Academy
