import Academy.Binary64.Decimal
import Academy.Proofs.Binary64.Places

/-!
# The shortest decimal of a number of few decimal places

A number of some decimal places is the one that is read from so many units
of the last place. The search for the fewest digits goes from coarse grids
to finer ones and takes the first on which a neighbour reads back, so it
comes to an end on the grid of these units at the latest: there the units
themselves are a neighbour, since the number has been rounded by less than
one of them.

So the digits that are found do not go beyond the last place
(`shortest_places`). That they read back is the condition under which they
are taken, and it is said here as a rounded quotient with the same
denominator as the number that was given, which is the form in which
another reader may be compared with it.
-/

namespace Academy

namespace Decimal

/-! ## Units of a decimal place -/

/-- A decimal as a count of units of a decimal place, where it has no digits
beyond that place. -/
def units (places : Nat) (d : Decimal) : Nat :=
  d.digits * 10 ^ (d.exponent + places).toNat

/-- **Zeros at the end do not count.** -/
theorem strip_spec {places : Nat} (room : Nat) {d : Decimal} (h : -(places : Int) ≤ d.exponent) :
    -(places : Int) ≤ (d.strip room).exponent ∧ (d.strip room).units places = d.units places := by
  induction room generalizing d with
  | zero => exact ⟨h, rfl⟩
  | succ room ih =>
    unfold strip
    split
    · next hzero =>
      obtain ⟨hexponent, hunits⟩ := ih (d := ⟨d.digits / 10, d.exponent + 1⟩)
        (show -(places : Int) ≤ d.exponent + 1 by omega)
      refine ⟨hexponent, hunits.trans ?_⟩
      -- the zero that is taken from the digits goes into the exponent
      have hpower : (d.exponent + 1 + places).toNat = (d.exponent + places).toNat + 1 := by omega
      unfold units
      dsimp only
      rw [hpower, pow_succ', ← Nat.mul_assoc, Nat.div_mul_cancel (Nat.dvd_of_mod_eq_zero hzero.2)]
    · exact ⟨h, rfl⟩

/-! ## The leading place -/

/-- The leading place, or one or two less. -/
def placeGuess (num den : Nat) : Int :=
  (((num.log2 : Int) - den.log2 - 1) * 30103).fdiv 100000

theorem leadingPlace_eq (num den : Nat) :
    leadingPlace num den =
      if (onGrid num den (placeGuess num den + 2)).2 ≤ (onGrid num den (placeGuess num den + 2)).1
        then placeGuess num den + 2
      else if (onGrid num den (placeGuess num den + 1)).2
          ≤ (onGrid num den (placeGuess num den + 1)).1
        then placeGuess num den + 1
      else placeGuess num den := by
  unfold leadingPlace
  simp only [decide_eq_true_eq]
  rfl

theorem leadingPlace_cases (num den : Nat) :
    placeGuess num den ≤ leadingPlace num den ∧ leadingPlace num den ≤ placeGuess num den + 2 := by
  rw [leadingPlace_eq]
  generalize placeGuess num den = guess
  split
  · omega
  · split <;> omega

/-- A place that the quotient reaches is not above the leading one, if it is not
far from the guess. -/
theorem le_leadingPlace {num den : Nat} {place : Int} (hguess : place ≤ placeGuess num den + 1)
    (hreaches : (onGrid num den place).2 ≤ (onGrid num den place).1) :
    place ≤ leadingPlace num den := by
  rcases Int.lt_or_eq_of_le hguess with hlt | rfl
  · exact (Int.lt_add_one_iff.mp hlt).trans (leadingPlace_cases num den).1
  · rw [leadingPlace_eq, if_pos hreaches]
    generalize placeGuess num den = guess
    split <;> omega

end Decimal

namespace Binary64

/-! ## Neighbours that read back -/

variable {x : Binary64} {tie : Tie} {exponent : Int}

/-- The whole units of a decimal grid in a number. -/
def lowNeighbour (x : Binary64) (exponent : Int) : Nat :=
  (Decimal.onGrid x.magnitude one exponent).1 / (Decimal.onGrid x.magnitude one exponent).2

theorem readBackOn_spec {d : Decimal} (h : x.readBackOn tie exponent = some d) :
    d.exponent = exponent ∧ ofDecimal x.isNegative d.digits exponent = x ∧
      d.digits ≤ x.lowNeighbour exponent + 1 := by
  unfold readBackOn at h
  dsimp only at h
  split at h
  · next hlow =>
    obtain rfl := Option.some.inj h
    exact ⟨rfl, of_decide_eq_true hlow.1, Nat.le_succ _⟩
  · split at h
    · next hhigh =>
      obtain rfl := Option.some.inj h
      exact ⟨rfl, of_decide_eq_true hhigh, Nat.le_refl _⟩
    · exact nomatch h

/-- One of the two neighbours is taken if one of them reads back. -/
theorem exists_readBackOn {digits : Nat} (tie : Tie)
    (hnear : digits = x.lowNeighbour exponent ∨ digits = x.lowNeighbour exponent + 1)
    (h : ofDecimal x.isNegative digits exponent = x) : ∃ d, x.readBackOn tie exponent = some d := by
  unfold readBackOn
  dsimp only
  split
  · exact ⟨_, rfl⟩
  · next hlow =>
    split
    · exact ⟨_, rfl⟩
    · next hhigh =>
      rcases hnear with rfl | rfl
      · exact absurd ⟨decide_eq_true h, .inr hhigh⟩ hlow
      · exact absurd (decide_eq_true h) hhigh

/-! ## Decimals as rounded quotients -/

/-- **What a decimal is read as** is the rounded quotient of its units. -/
theorem ofDecimal_eq_round (negative : Bool) {d : Decimal} {places : Nat} (h0 : d.digits ≠ 0)
    (hlow : -(places : Int) ≤ d.exponent) (hhigh : d.exponent ≤ 400) (hplaces : places ≤ 400) :
    ofDecimal negative d.digits d.exponent
      = round negative (d.units places * one) (10 ^ places) := by
  unfold ofDecimal
  rw [if_neg h0, if_neg (by omega), if_neg (by omega)]
  split
  · have hpower : (d.exponent + places).toNat = d.exponent.toNat + places := by omega
    refine round_congr negative Nat.one_pos (Nat.pow_pos (by decide)) ?_
    rw [Decimal.units, hpower, pow_add, Nat.pow_eq]
    ring
  · have hpower : places = (d.exponent + places).toNat + (-d.exponent).toNat := by omega
    refine round_congr negative (Nat.pow_pos (by decide)) (Nat.pow_pos (by decide)) ?_
    rw [Decimal.units, Nat.pow_eq]
    nth_rewrite 1 [hpower]
    rw [pow_add]
    ring

/-- **A decimal place that its unit reaches**: the number nearest to the unit is
not below it, so it is not taken for a smaller place. -/
structure Reached (places : Nat) : Prop where
  /-- There is a place after the point, and not too many. -/
  bounds : 0 < places ∧ places ≤ 3
  /-- The number nearest to the unit is not below it. -/
  unit_le : one ≤ roundedUnits one (10 ^ places) * 10 ^ places
  /-- The place is found by its logarithm. -/
  guess : -(places : Int) ≤ Decimal.placeGuess (roundedUnits one (10 ^ places)) one + 1

theorem reached_one : Reached 1 := ⟨by decide, by decide +kernel, by decide +kernel⟩

theorem reached_two : Reached 2 := ⟨by decide, by decide +kernel, by decide +kernel⟩

section

variable {places n : Nat}

theorem magnitude_near (hplaces : Reached places) (hn : n < 2 ^ 30) :
    roundedUnits (n * one) (10 ^ places) * 10 ^ places < (n + 1) * one ∧
      n * one < roundedUnits (n * one) (10 ^ places) * 10 ^ places + one := by
  have hone := one_pos
  -- the finest grid is finer than a unit of the last place
  have hstep : 10 ^ places ≤ one := by
    obtain ⟨k, hk, heq⟩ := one_eq_pow
    have hpower : 10 ^ places ≤ 10 ^ 3 := Nat.pow_le_pow_right (by decide) hplaces.bounds.2
    rw [heq]
    exact (hpower.trans (by decide : 10 ^ 3 ≤ 2 ^ 10)).trans
      (Nat.pow_le_pow_right (by decide) (by omega))
  obtain ⟨hlow, hhigh⟩ := roundedUnits_near (Nat.pow_pos (by decide)) hstep
    (Nat.mul_lt_mul_of_pos_right (hn.trans (by decide : 2 ^ 30 < 2 ^ 52)) hone)
  rw [Nat.add_mul, Nat.one_mul]
  omega

theorem roundedUnits_lt (hplaces : Reached places) (hn : n < 2 ^ 30) :
    roundedUnits (n * one) (10 ^ places) < 2 ^ 30 * one :=
  calc roundedUnits (n * one) (10 ^ places)
      ≤ roundedUnits (n * one) (10 ^ places) * 10 ^ places :=
        Nat.le_mul_of_pos_right _ (Nat.pow_pos (by decide))
    _ < (n + 1) * one := (magnitude_near hplaces hn).1
    _ ≤ 2 ^ 30 * one := Nat.mul_le_mul_right _ hn

theorem unsigned_of_places (hplaces : Reached places) (hn : n < 2 ^ 30) :
    (round false (n * one) (10 ^ places)).Unsigned ∧
      (round false (n * one) (10 ^ places)).magnitude = roundedUnits (n * one) (10 ^ places) := by
  refine Unsigned.of_round (Nat.pow_pos (by decide)) ?_
  rcases round_cases false (n * one) (Nat.pow_pos (by decide : 0 < 10)) with ⟨h, -⟩ | ⟨-, h⟩
  · exact h
  · exfalso
    obtain ⟨k, hk, hone⟩ := one_eq_pow
    obtain ⟨l, hl, hlimit⟩ := unitLimit_eq_pow
    have hlarge : 2 ^ 30 * one ≤ unitLimit := by
      rw [hone, hlimit]
      exact Nat.mul_le_mul (by decide) (Nat.pow_le_pow_right (by decide) (by omega))
    exact absurd h (Nat.not_le.mpr ((roundedUnits_lt hplaces hn).trans_le hlarge))

theorem magnitude_pos (hplaces : Reached places) (h0 : 0 < n) (hn : n < 2 ^ 30) :
    0 < roundedUnits (n * one) (10 ^ places) := by
  have habove := (magnitude_near hplaces hn).2
  have hle := Nat.le_mul_of_pos_left one h0
  refine Nat.pos_of_ne_zero fun hzero => ?_
  rw [hzero, Nat.zero_mul] at habove
  omega

theorem onGrid_neg (hplaces : 0 < places) (num den : Nat) :
    Decimal.onGrid num den (-(places : Int)) = (num * 10 ^ places, den) := by
  unfold Decimal.onGrid
  rw [if_neg (by omega), Int.neg_neg, Int.toNat_natCast]
  rfl

/-- **The units are a neighbour** of the number on their grid. -/
theorem units_near_lowNeighbour (hplaces : Reached places) (hn : n < 2 ^ 30)
    (hx : x.magnitude = roundedUnits (n * one) (10 ^ places)) :
    n = x.lowNeighbour (-(places : Int)) ∨ n = x.lowNeighbour (-(places : Int)) + 1 := by
  obtain ⟨hlow, hhigh⟩ := magnitude_near hplaces hn
  unfold lowNeighbour
  rw [onGrid_neg hplaces.bounds.1, hx]
  dsimp only
  have hle := (Nat.div_lt_iff_lt_mul one_pos).mpr hlow
  have hge : n - 1 ≤ roundedUnits (n * one) (10 ^ places) * 10 ^ places / one := by
    rw [Nat.le_div_iff_mul_le one_pos, Nat.sub_mul, Nat.one_mul]
    omega
  omega

theorem placeGuess_mono {num num' : Nat} (h : num ≤ num') (den : Nat) :
    Decimal.placeGuess num den ≤ Decimal.placeGuess num' den := by
  have hlog : num.log2 ≤ num'.log2 := by
    rcases Nat.eq_zero_or_pos num with rfl | hpos
    · exact Nat.zero_le _
    · exact (Nat.le_log2 (by omega)).mpr ((Nat.log2_self_le hpos.ne').trans h)
  unfold Decimal.placeGuess
  rw [Int.fdiv_eq_ediv_of_nonneg _ (by decide), Int.fdiv_eq_ediv_of_nonneg _ (by decide)]
  omega

/-- **The leading place** of such a number. -/
theorem leadingPlace_of_places (hplaces : Reached places) (h0 : 0 < n) (hn : n < 2 ^ 30) :
    -(places : Int) ≤ Decimal.leadingPlace (roundedUnits (n * one) (10 ^ places)) one ∧
      Decimal.leadingPlace (roundedUnits (n * one) (10 ^ places)) one ≤ 10 := by
  have hmono : roundedUnits one (10 ^ places) ≤ roundedUnits (n * one) (10 ^ places) := by
    have hpower : 0 < 10 ^ places := Nat.pow_pos (by decide)
    refine roundedUnits_mono hpower hpower (Nat.mul_le_mul_right _ ?_)
    exact Nat.le_mul_of_pos_left one h0
  refine ⟨Decimal.le_leadingPlace ?_ ?_, ?_⟩
  · have := placeGuess_mono hmono one
    have := hplaces.guess
    omega
  · rw [onGrid_neg hplaces.bounds.1]
    exact hplaces.unit_le.trans (Nat.mul_le_mul_right _ hmono)
  · have hguess := placeGuess_mono (roundedUnits_lt hplaces hn).le one
    have hcases := (Decimal.leadingPlace_cases (roundedUnits (n * one) (10 ^ places)) one).2
    have hlargest : Decimal.placeGuess (2 ^ 30 * one) one = 8 := by
      obtain ⟨k, -, hone⟩ := one_eq_pow
      unfold Decimal.placeGuess
      rw [hone, ← pow_add, Nat.log2_two_pow, Nat.log2_two_pow,
        Int.fdiv_eq_ediv_of_nonneg _ (by decide)]
      omega
    omega

/-! ## The shortest decimal -/

/-- The first of some attempts that succeeds is not after one that does. -/
theorem findSome?_range {α : Type} {f : Nat → Option α} {count k : Nat} {a : α} (hk : k < count)
    (h : f k = some a) :
    ∃ k' ≤ k, ∃ b, f k' = some b ∧ (List.range count).findSome? f = some b := by
  have hsome : ((List.range count).findSome? f).isSome = true :=
    List.findSome?_isSome_iff.mpr ⟨k, List.mem_range.mpr hk, by rw [h]; rfl⟩
  obtain ⟨b, hb⟩ := Option.isSome_iff_exists.mp hsome
  obtain ⟨before, k', after, hrange, hk', hnone⟩ := List.findSome?_eq_some_iff.mp hb
  refine ⟨k', ?_, b, hk', hb⟩
  -- all attempts before the one that is found have failed, and `k` has not
  have hsorted := List.pairwise_lt_range (n := count)
  have hmem := List.mem_range.mpr hk
  rw [hrange, List.mem_append, List.mem_cons] at hmem
  rw [hrange, List.pairwise_append, List.pairwise_cons] at hsorted
  rcases hmem with hbefore | rfl | hafter
  · rw [hnone k hbefore] at h
    exact nomatch h
  · exact Nat.le_refl _
  · exact (hsorted.2.1.1 k hafter).le

/-- A neighbour from below is not more units than there are in the number. -/
theorem lowNeighbour_units (x : Binary64) (h : -(places : Int) ≤ exponent) :
    x.lowNeighbour exponent * 10 ^ (exponent + places).toNat * one ≤ x.magnitude * 10 ^ places := by
  unfold lowNeighbour Decimal.onGrid
  split
  · have hpower : (exponent + places).toNat = exponent.toNat + places := by omega
    have hle := Nat.div_mul_le_self x.magnitude (one * 10 ^ exponent.toNat)
    rw [hpower, pow_add]
    calc x.magnitude / (one * 10 ^ exponent.toNat) * (10 ^ exponent.toNat * 10 ^ places) * one
        = x.magnitude / (one * 10 ^ exponent.toNat) * (one * 10 ^ exponent.toNat) * 10 ^ places := by
          ring
      _ ≤ x.magnitude * 10 ^ places := Nat.mul_le_mul_right _ hle
  · have hpower : places = (-exponent).toNat + (exponent + places).toNat := by omega
    have hle := Nat.div_mul_le_self (x.magnitude * 10 ^ (-exponent).toNat) one
    nth_rewrite 2 [hpower]
    rw [pow_add]
    calc x.magnitude * 10 ^ (-exponent).toNat / one * 10 ^ (exponent + places).toNat * one
        = x.magnitude * 10 ^ (-exponent).toNat / one * one * 10 ^ (exponent + places).toNat := by
          ring
      _ ≤ x.magnitude * 10 ^ (-exponent).toNat * 10 ^ (exponent + places).toNat :=
          Nat.mul_le_mul_right _ hle
      _ = x.magnitude * (10 ^ (-exponent).toNat * 10 ^ (exponent + places).toNat) := by ring

/-- Units of the last place are read as the number that they are rounded to. -/
theorem ofDecimal_units (h0 : 0 < n) (hplaces : places ≤ 400) :
    ofDecimal false n (-(places : Int)) = round false (n * one) (10 ^ places) := by
  have hread := ofDecimal_eq_round (d := ⟨n, -(places : Int)⟩) false h0.ne' (Int.le_refl _)
    (show -(places : Int) ≤ 400 by omega) hplaces
  refine hread.trans ?_
  unfold Decimal.units
  dsimp only
  rw [Int.add_left_neg, Int.toNat_zero, pow_zero, Nat.mul_one]

/-- **The search comes to an end** on the grid of the units at the latest. -/
theorem exists_shortest (hplaces : Reached places) (h0 : 0 < n) (hn : n < 2 ^ 30)
    (hx : x = round false (n * one) (10 ^ places)) (tie : Tie) :
    ∃ d : Decimal, x.shortest tie = d.strip 800 ∧ x.readBackOn tie d.exponent = some d ∧
      -(places : Int) ≤ d.exponent ∧ d.exponent ≤ 10 := by
  obtain ⟨hunsigned, hmagnitude⟩ := unsigned_of_places hplaces hn
  obtain ⟨hleading, hleading'⟩ := leadingPlace_of_places hplaces h0 hn
  have hbounds := hplaces.bounds
  rw [← hx] at hunsigned hmagnitude
  rw [← hmagnitude] at hleading hleading'
  have hunits : ofDecimal x.isNegative n (-(places : Int)) = x := by
    rw [hunsigned.2, hx]
    exact ofDecimal_units h0 (by omega)
  obtain ⟨last, hlast⟩ := exists_readBackOn tie
    (units_near_lowNeighbour hplaces hn hmagnitude) hunits
  unfold shortest
  dsimp only
  generalize Decimal.leadingPlace x.magnitude one = leading at *
  have hend : x.readBackOn tie (leading - ((leading + places).toNat : Nat)) = some last := by
    rw [show leading - ((leading + places).toNat : Nat) = -(places : Int) by omega]
    exact hlast
  obtain ⟨k, hk, d, hd, hfound⟩ :=
    findSome?_range (f := fun k : Nat => x.readBackOn tie (leading - k))
      (show (leading + places).toNat < 17 by omega) hend
  have hexponent : d.exponent = leading - k := (readBackOn_spec hd).1
  rw [← hexponent] at hd
  rw [hfound]
  exact ⟨d, rfl, hd, by omega, by omega⟩

/-- A neighbour on a grid that is not finer than the last place is not many
units. -/
theorem units_lt_of_lowNeighbour {d : Decimal} (hlow : -(places : Int) ≤ d.exponent)
    (hhigh : d.exponent + places ≤ 13) (hdigits : d.digits ≤ x.lowNeighbour d.exponent + 1)
    (hbelow : x.magnitude * 10 ^ places < (n + 1) * one) (hn : n < 2 ^ 30) :
    d.units places < 10 ^ 14 := by
  have hcount := Nat.lt_of_mul_lt_mul_right ((lowNeighbour_units x hlow).trans_lt hbelow)
  have hgrid : 10 ^ (d.exponent + places).toNat ≤ 10 ^ 13 :=
    Nat.pow_le_pow_right (by decide) (by omega)
  have hunits := Nat.mul_le_mul_right (10 ^ (d.exponent + places).toNat) hdigits
  rw [Nat.add_mul, Nat.one_mul] at hunits
  unfold Decimal.units
  omega

/-- **The shortest decimal has no digits beyond the last place**, and reads back
as a count of units that is not large. -/
theorem shortest_places (hplaces : Reached places) (h0 : 0 < n) (hn : n < 2 ^ 30)
    (hx : x = round false (n * one) (10 ^ places)) (tie : Tie) :
    -(places : Int) ≤ (x.shortest tie).exponent ∧
      0 < (x.shortest tie).units places ∧ (x.shortest tie).units places < 10 ^ 14 ∧
      x = round false ((x.shortest tie).units places * one) (10 ^ places) := by
  obtain ⟨d, hshortest, hd, hlow, hhigh⟩ := exists_shortest hplaces h0 hn hx tie
  obtain ⟨-, hread, hdigits⟩ := readBackOn_spec hd
  obtain ⟨hunsigned, hmagnitude⟩ := unsigned_of_places hplaces hn
  rw [← hx] at hunsigned hmagnitude
  have hbounds := hplaces.bounds
  -- the zeros that are taken off the end change neither the units nor their bound
  obtain ⟨hstrip, hsame⟩ := Decimal.strip_spec 800 hlow
  rw [hshortest, hsame]
  have hnonzero : d.digits ≠ 0 := by
    intro hzero
    rw [hzero] at hread
    have hpos := magnitude_pos hplaces h0 hn
    rw [← hmagnitude, ← hread] at hpos
    exact absurd hpos (Nat.lt_irrefl 0)
  refine ⟨hstrip, Nat.mul_pos (Nat.pos_of_ne_zero hnonzero) (Nat.pow_pos (by decide)), ?_, ?_⟩
  · have hbelow := (magnitude_near hplaces hn).1
    rw [← hmagnitude] at hbelow
    exact units_lt_of_lowNeighbour hlow (by omega) hdigits hbelow hn
  · rw [← ofDecimal_eq_round false hnonzero hlow (by omega) (by omega), ← hunsigned.2]
    exact hread.symm

end

end Binary64

end Academy
