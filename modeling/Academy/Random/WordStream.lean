/-!
# The stream of random words

All randomness is read from one stream of 32-bit words, the keystream of
the ChaCha cipher with twelve rounds: the words of consecutive blocks,
one after the other. The stream is determined by its key, and a run can
be repeated by naming a seed, from which the key is expanded.
-/

namespace Academy

/-- Four words that are worked on side by side. -/
structure WordRow where
  /-- The first word. -/
  a : UInt32
  /-- The second word. -/
  b : UInt32
  /-- The third word. -/
  c : UInt32
  /-- The fourth word. -/
  d : UInt32
deriving DecidableEq, Inhabited

namespace WordRow

/-- The sums, word by word. -/
def add (x y : WordRow) : WordRow :=
  ⟨x.a + y.a, x.b + y.b, x.c + y.c, x.d + y.d⟩

/-- The bitwise differences, rotated to the left. -/
def xorRotate (bits : UInt32) (x y : WordRow) : WordRow :=
  ⟨turn (x.a ^^^ y.a), turn (x.b ^^^ y.b), turn (x.c ^^^ y.c), turn (x.d ^^^ y.d)⟩
where
  turn (w : UInt32) : UInt32 := w <<< bits ||| w >>> (32 - bits)

/-- The row that begins with its second word. -/
def shift (x : WordRow) : WordRow :=
  ⟨x.b, x.c, x.d, x.a⟩

/-- The words in order. -/
def toList (x : WordRow) : List UInt32 :=
  [x.a, x.b, x.c, x.d]

end WordRow

/-- **A block of sixteen words**, as four rows. -/
structure WordBlock where
  /-- The first row. -/
  top : WordRow
  /-- The second row. -/
  upper : WordRow
  /-- The third row. -/
  lower : WordRow
  /-- The fourth row. -/
  bottom : WordRow
deriving DecidableEq, Inhabited

namespace WordBlock

/-- A round on the four columns at once. -/
def round (x : WordBlock) : WordBlock :=
  let top := x.top.add x.upper
  let bottom := x.bottom.xorRotate 16 top
  let lower := x.lower.add bottom
  let upper := x.upper.xorRotate 12 lower
  let top := top.add upper
  let bottom := bottom.xorRotate 8 top
  let lower := lower.add bottom
  let upper := upper.xorRotate 7 lower
  ⟨top, upper, lower, bottom⟩

/-- The block with its diagonals made columns. -/
def slant (x : WordBlock) : WordBlock :=
  ⟨x.top, x.upper.shift, x.lower.shift.shift, x.bottom.shift.shift.shift⟩

/-- The block with its columns made diagonals again. -/
def unslant (x : WordBlock) : WordBlock :=
  ⟨x.top, x.upper.shift.shift.shift, x.lower.shift.shift, x.bottom.shift⟩

/-- A round on the columns and a round on the diagonals. -/
def doubleRound (x : WordBlock) : WordBlock :=
  x.round.slant.round.unslant

/-- The sums, word by word. -/
def add (x y : WordBlock) : WordBlock :=
  ⟨x.top.add y.top, x.upper.add y.upper, x.lower.add y.lower, x.bottom.add y.bottom⟩

/-- **Twelve rounds**, and the block that they began with added. -/
def scramble (x : WordBlock) : WordBlock :=
  x.doubleRound.doubleRound.doubleRound.doubleRound.doubleRound.doubleRound.add x

/-- The words in order. -/
def toList (x : WordBlock) : List UInt32 :=
  x.top.toList ++ x.upper.toList ++ x.lower.toList ++ x.bottom.toList

end WordBlock

/-- **A stream of words** at some place. -/
structure WordStream where
  /-- The first half of the key. -/
  keyLow : WordRow
  /-- The second half of the key. -/
  keyHigh : WordRow
  /-- The number of the next block. -/
  block : UInt64
  /-- The words of the last block that have not been read. -/
  pending : List UInt32
deriving DecidableEq, Inhabited

namespace WordStream

/-- The constants that every block begins with. -/
def constants : WordRow :=
  ⟨0x61707865, 0x3320646E, 0x79622D32, 0x6B206574⟩

/-- The next block: of the constants, the key and the number of the block. -/
def nextBlock (s : WordStream) : WordBlock :=
  WordBlock.scramble
    ⟨constants, s.keyLow, s.keyHigh, ⟨s.block.toUInt32, (s.block >>> 32).toUInt32, 0, 0⟩⟩

/-- **The next word**, and the stream after it. -/
def next (s : WordStream) : UInt32 × WordStream :=
  match s.pending with
  | w :: pending => (w, { s with pending })
  | [] =>
    let block := s.nextBlock
    (block.top.a, { s with block := s.block + 1, pending := block.toList.drop 1 })

/-- The beginning of the stream of a key. -/
def ofKey (keyLow keyHigh : WordRow) : WordStream :=
  ⟨keyLow, keyHigh, 0, []⟩

/-! ## Seeds -/

/-- The next state of the generator that expands a seed. -/
def seedStep (state : UInt64) : UInt64 :=
  state * 6364136223846793005 + 11634580027462260723

/-- The word that the generator gives for a state. -/
def seedWord (state : UInt64) : UInt32 :=
  let word := (((state >>> 18) ^^^ state) >>> 27).toUInt32
  let bits := (state >>> 59).toUInt32
  word >>> bits ||| word <<< ((32 - bits) % 32)

/-- Four words of a seed, and the state after them. -/
def seedRow (state : UInt64) : WordRow × UInt64 :=
  let s₁ := seedStep state
  let s₂ := seedStep s₁
  let s₃ := seedStep s₂
  let s₄ := seedStep s₃
  (⟨seedWord s₁, seedWord s₂, seedWord s₃, seedWord s₄⟩, s₄)

/-- **The stream of a seed.** -/
def ofSeed (seed : UInt64) : WordStream :=
  let (low, state) := seedRow seed
  ofKey low (seedRow state).1

end WordStream

end Academy
