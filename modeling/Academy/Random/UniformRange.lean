import Academy.Binary64.Basic
import Academy.Random.Draw

/-!
# Uniform numbers of a range

A number between two bounds, both included, is the lower bound and a
drawn fraction of the width. The width is stretched a little, so that the
greatest fraction gives the upper bound, and then taken back number by
number for as long as it would give more.
-/

namespace Academy

/-- **Steps towards zero** for as long as a number is too large, `steps` of
them at most. -/
def Binary64.lowerWhile (tooLarge : Binary64 → Bool) : (steps : Nat) → Binary64 → Binary64
  | 0, x => x
  | steps + 1, x => if tooLarge x then lowerWhile tooLarge steps x.towardsZero else x

/-- Steps towards zero until a number is no longer too large. A step takes a
unit away at least, so there is an end. -/
def Binary64.lowered (x : Binary64) (tooLarge : Binary64 → Bool) : Binary64 :=
  lowerWhile tooLarge x.magnitude x

/-- **A range of numbers** to draw from. -/
structure UniformRange where
  /-- The lower bound. -/
  low : Binary64
  /-- What a fraction is multiplied with. -/
  scale : Binary64
deriving DecidableEq

namespace UniformRange

/-- The range between two bounds, if they are in order and not too far
apart. -/
def of? (low high : Binary64) : Option UniformRange :=
  let scale := (high - low) / Draw.greatestFraction
  if low.le high && scale.isFinite then
    some ⟨low, scale.lowered fun s => high.lt (s * Draw.greatestFraction + low)⟩
  else none

/-- The range between two bounds that are known to be in order and not too
far apart. -/
def known (low high : Binary64) (accepted : (of? low high).isSome) : UniformRange :=
  (of? low high).get accepted

/-- **A number of the range.** -/
def draw (range : UniformRange) : Draw Binary64 := do
  let f ← Draw.fraction
  pure (f * range.scale + range.low)

/-- A number of the range, rounded to decimal places. -/
def drawRounded (range : UniformRange) (places : Int) : Draw Binary64 := do
  let x ← range.draw
  pure (x.roundTo places)

end UniformRange

end Academy
