/-!
# Words and blank characters

What lies between the gaps of a text, where the gaps are the characters
of some kind: the words of a name between blanks, the parts of a path
between slashes. No word is empty, and how long a gap is does not matter.

Which characters separate the words of a name and which lines count as
empty is the `White_Space` property of the Unicode standard: the controls
from tab to carriage return, the space, the next-line control, and the
spaces and separators outside ASCII – but not the zero-width characters.
Like every property of characters it is given by the ranges of code points
that have it, in ascending order.
-/

namespace Academy

/-! ## Words -/

/-- The word that a text begins with and the words after it; the first is
empty where the text begins with a gap. -/
def leadingWord (isGap : Char → Bool) : List Char → List Char × List (List Char)
  | [] => ([], [])
  | c :: s =>
    let (word, rest) := leadingWord isGap s
    if isGap c then ([], if word.isEmpty then rest else word :: rest) else (c :: word, rest)

/-- **The words between the gaps of a text.** -/
def wordsBetween (isGap : Char → Bool) (s : List Char) : List (List Char) :=
  let (word, rest) := leadingWord isGap s
  if word.isEmpty then rest else word :: rest

/-! ## Blank characters -/

/-- Whether a code point lies in one of the ranges. -/
def inRanges (ranges : List (Nat × Nat)) (code : Nat) : Bool :=
  ranges.any fun (first, last) => first ≤ code && code ≤ last

/-- The characters with the property `White_Space`. -/
def blankRanges : List (Nat × Nat) :=
  [(0x9, 0xD), (0x20, 0x20), (0x85, 0x85), (0xA0, 0xA0), (0x1680, 0x1680), (0x2000, 0x200A),
   (0x2028, 0x2029), (0x202F, 0x202F), (0x205F, 0x205F), (0x3000, 0x3000)]

/-- Whether a character is blank. -/
def isBlank (c : Char) : Bool :=
  inRanges blankRanges c.toNat

/-- Whether a text has no other than blank characters. -/
def isBlankText (s : List Char) : Bool :=
  s.all isBlank

/-- **The words of a text**: its longest parts without blank characters. -/
def words (s : List Char) : List (List Char) :=
  wordsBetween isBlank s

end Academy
