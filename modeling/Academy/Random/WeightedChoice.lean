import Academy.Random.UniformRange

/-!
# Weighted choices

An outcome is drawn in proportion to its weight: a number below the total
of the weights is drawn, and the outcome is the one in whose stretch of
the running sums it falls. The sums are binary64 numbers and rounded as
they are formed; the number drawn is kept below the rounded total, so
that it falls into a stretch in every case, and a stretch of no length is
never hit.
-/

namespace Academy

/-- **Why weights are refused.** -/
inductive WeightError
  /-- There are none. -/
  | noWeights
  /-- One is negative or not a number. -/
  | invalidWeight
  /-- Their total is zero. -/
  | allZero
  /-- Their total is too large. -/
  | infiniteTotal
deriving DecidableEq, Repr

/-- What is said about refused weights. -/
def WeightError.message : WeightError → String
  | .noWeights => "No weights provided in distribution"
  | .invalidWeight => "A weight is invalid in distribution"
  | .allZero => "All weights are zero in distribution"
  | .infiniteTotal => "The total weight is infinite"

/-- **Outcomes with their weights**, ready to be drawn from. -/
structure WeightedChoice (α : Type) where
  /-- The outcome of the first stretch. -/
  first : α
  /-- Each further outcome, with the sum of the weights before it. -/
  further : List (α × Binary64)
  /-- What a fraction is multiplied with to stay below the total. -/
  scale : Binary64
deriving DecidableEq

namespace WeightedChoice

variable {α : Type}

/-- The outcomes in order. -/
def outcomes (choice : WeightedChoice α) : List α :=
  choice.first :: choice.further.map Prod.fst

/-- Whether a weight is one: at least zero, and a number. -/
def isWeight (w : Binary64) : Bool :=
  (0 : Binary64).le w

/-- The further outcomes with the sums before them, and the total, given the
sum so far. -/
def sums (sum : Binary64) :
    List (α × Binary64) → Except WeightError (List (α × Binary64) × Binary64)
  | [] => .ok ([], sum)
  | (a, w) :: pairs =>
    if isWeight w then do
      let (further, total) ← sums (sum + w) pairs
      pure ((a, sum) :: further, total)
    else .error .invalidWeight

/-- The choice of outcomes and weights. -/
def of : List (α × Binary64) → Except WeightError (WeightedChoice α)
  | [] => .error .noWeights
  | (a, w) :: pairs =>
    if isWeight w then do
      let (further, total) ← sums w pairs
      if total.equal 0 then throw .allZero
      if !total.isFinite then throw .infiniteTotal
      let scale := total.lowered fun s => total.le (s * Draw.greatestFraction)
      pure ⟨a, further, scale⟩
    else .error .invalidWeight

/-- The outcome of a number: the last before which no more than the number
has been summed up. -/
def outcomeAt (choice : WeightedChoice α) (x : Binary64) : α :=
  let passed := (choice.further.filter fun (_, sum) => sum.le x).length
  (choice.outcomes[passed]?).getD choice.first

/-- **An outcome in proportion to its weight.** -/
def draw (choice : WeightedChoice α) : Draw α := do
  let f ← Draw.fraction
  pure (choice.outcomeAt (f * choice.scale + 0))

/-- The choice of weights that are known not to be refused. -/
def known (pairs : List (α × Binary64)) (accepted : (of pairs).toBool = true) :
    WeightedChoice α :=
  match h : of pairs with
  | .ok choice => choice
  | .error _ => by simp [h, Except.toBool] at accepted

end WeightedChoice

end Academy
