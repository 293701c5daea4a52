import Academy.Proofs.Binary64.Nearest
import Academy.Proofs.Binary64.NearestPlaces
import Academy.Proofs.Random.Draws

/-!
# A rounded number stays in its range

What is drawn from a range is a fraction of the scale, added to the lower
bound. Both operations round, but they keep the order: the smallest
fraction gives the lower bound, which needs no rounding, and the greatest one
gives what the scale has been lowered for until it is not above the upper
bound. So no fraction leads out of the range, whatever the bounds are.

Rounding to decimal places then moves the number, and it could move it out of
the range again. It does not where it keeps the order too and where the bounds
are not moved themselves.
-/

namespace Academy

open Binary64

/-! ## Lowering ends -/

namespace Binary64

variable {tooLarge : Binary64 → Bool}

/-- As many steps as there are units are enough. -/
theorem lowerWhile_unsigned
    (hzero : ∀ y : Binary64, y.Unsigned → y.magnitude = 0 → tooLarge y = false) (steps : Nat)
    {x : Binary64} (hx : x.Unsigned) (hsteps : x.magnitude ≤ steps) :
    (lowerWhile tooLarge steps x).Unsigned ∧
      (lowerWhile tooLarge steps x).magnitude ≤ x.magnitude ∧
      tooLarge (lowerWhile tooLarge steps x) = false := by
  induction steps generalizing x with
  | zero => exact ⟨hx, Nat.le_refl _, hzero x hx (Nat.le_zero.mp hsteps)⟩
  | succ steps ih =>
    unfold lowerWhile
    split
    · obtain ⟨hunsigned, hless⟩ := hx.towardsZero
      obtain ⟨hlowered, hle, hnot⟩ := ih hunsigned (by omega)
      exact ⟨hlowered, by omega, hnot⟩
    · next h => exact ⟨hx, Nat.le_refl _, Bool.eq_false_of_not_eq_true h⟩

/-- **A number is lowered until it is no longer too large**, if zero is not. -/
theorem lowered_unsigned
    (hzero : ∀ y : Binary64, y.Unsigned → y.magnitude = 0 → tooLarge y = false) {x : Binary64}
    (hx : x.Unsigned) :
    (x.lowered tooLarge).Unsigned ∧ (x.lowered tooLarge).magnitude ≤ x.magnitude ∧
      tooLarge (x.lowered tooLarge) = false :=
  lowerWhile_unsigned hzero _ hx (Nat.le_refl _)

/-- The same by values, with a zero of either sign to begin with. -/
theorem lowered_nonnegative
    (hzero : ∀ y : Binary64, y.isFinite = true → y.value = 0 → tooLarge y = false) {x : Binary64}
    (hx : x.Nonnegative) :
    (x.lowered tooLarge).Nonnegative ∧ (x.lowered tooLarge).value ≤ x.value ∧
      tooLarge (x.lowered tooLarge) = false := by
  rcases h0 : x.equal 0 with _ | _
  · have hzero' : ∀ y : Binary64, y.Unsigned → y.magnitude = 0 → tooLarge y = false := by
      intro y hy h
      refine hzero y hy.1 ?_
      rw [hy.value_eq, h, Nat.cast_zero, zero_div]
    obtain ⟨hunsigned, hle, hnot⟩ := lowered_unsigned hzero' (hx.unsigned h0).1
    have hvalue : 0 ≤ (x.lowered tooLarge).value := by
      rw [hunsigned.value_eq]
      exact div_nonneg (Nat.cast_nonneg _) one_cast_pos.le
    refine ⟨nonnegative_of_value hunsigned.1 hvalue, ?_, hnot⟩
    rw [hunsigned.value_eq, (hx.unsigned h0).1.value_eq,
      div_le_div_iff_of_pos_right one_cast_pos]
    exact Nat.cast_le.mpr hle
  · rw [equal_zero_iff hx.1] at h0
    have hunchanged : x.lowered tooLarge = x := by
      have hmagnitude : x.magnitude = 0 := by
        have := hx.magnitude_eq
        omega
      unfold lowered
      rw [hmagnitude]
      rfl
    rw [hunchanged]
    refine ⟨hx, le_refl _, hzero x hx.1 ?_⟩
    rw [value, h0, Int.cast_zero, zero_div]

end Binary64

/-! ## No fraction leads out of the range -/

/-- The greatest fraction lies between a half and one. -/
theorem Draw.greatestFraction_bounds :
    Draw.greatestFraction.Unsigned ∧ Binary64.one ≤ 2 * Draw.greatestFraction.magnitude ∧
      Draw.greatestFraction.magnitude ≤ Binary64.one := by
  decide +kernel

theorem Draw.value_greatestFraction :
    1 / 2 ≤ Draw.greatestFraction.value ∧ Draw.greatestFraction.value ≤ 1 := by
  obtain ⟨hunsigned, hlow, hhigh⟩ := Draw.greatestFraction_bounds
  have hone := one_cast_pos
  rw [hunsigned.value_eq, le_div_iff₀ hone, div_le_one hone]
  have hlow' : (Binary64.one : ℚ) ≤ 2 * Draw.greatestFraction.magnitude := by exact_mod_cast hlow
  exact ⟨by linarith, by exact_mod_cast hhigh⟩

namespace UniformRange

variable {low high : Binary64}

/-- A product and a moderate number are added with two roundings. -/
theorem rounds_mul_add {x y : Binary64} (hx : x.isFinite = true) (hy : y.isFinite = true)
    (hsmall : |x.value * y.value| ≤ (2 ^ 50 : ℕ)) (hlow : low.Moderate) :
    Rounds (x * y + low) (rounded (x.value * y.value) + low.value) := by
  have hproduct : Rounds (x * y) (x.value * y.value) :=
    rounds_mul hx hy (hsmall.trans (by norm_num))
  have hrounded : |rounded (x.value * y.value)| ≤ (2 ^ 50 : ℕ) :=
    abs_rounded_le (by norm_num) hsmall
  rw [← hproduct.2] at hrounded ⊢
  refine rounds_add hproduct.1 hlow.1 ?_
  calc |(x * y).value + low.value| ≤ |(x * y).value| + |low.value| := abs_add_le _ _
    _ ≤ (2 ^ 50 : ℕ) + 2 ^ 40 := add_le_add hrounded hlow.2
    _ ≤ 2 ^ 100 := by norm_num

/-- The scale that lowering begins with. -/
theorem rounds_scale (hlow : low.Moderate) (hhigh : high.Moderate) (hle : low.le high = true) :
    ((high - low) / Draw.greatestFraction).Nonnegative ∧
      ((high - low) / Draw.greatestFraction).value ≤ (2 ^ 42 : ℕ) := by
  have hgreatest := Draw.greatestFraction_bounds.1
  obtain ⟨hhalf, -⟩ := Draw.value_greatestFraction
  rw [le_iff_value hlow.1 hhigh.1] at hle
  obtain ⟨hlow', hlow''⟩ := abs_le.mp hlow.2
  obtain ⟨hhigh', hhigh''⟩ := abs_le.mp hhigh.2
  have hwidth : Rounds (high - low) (high.value - low.value) :=
    rounds_sub hhigh.1 hlow.1 (abs_le.mpr ⟨by linarith, by linarith⟩)
  have hnonneg : 0 ≤ (high - low).value := by
    rw [hwidth.2]
    exact rounded_nonneg (by linarith)
  have hless : (high - low).value ≤ (2 ^ 41 : ℕ) := by
    rw [hwidth.2]
    exact rounded_le_natCast (by norm_num) (by push_cast; linarith)
  have hquotient : 0 ≤ (high - low).value / Draw.greatestFraction.value :=
    div_nonneg hnonneg (by linarith)
  have hquotient' : (high - low).value / Draw.greatestFraction.value ≤ (2 ^ 42 : ℕ) := by
    rw [div_le_iff₀ (by linarith)]
    calc (high - low).value ≤ (2 ^ 42 : ℕ) * (1 / 2) := hless.trans (by norm_num)
      _ ≤ (2 ^ 42 : ℕ) * Draw.greatestFraction.value :=
        mul_le_mul_of_nonneg_left hhalf (by norm_num)
  obtain ⟨hfinite, hvalue⟩ : Rounds ((high - low) / Draw.greatestFraction)
      ((high - low).value / Draw.greatestFraction.value) := by
    refine rounds_div hwidth.1 hgreatest.1 (by linarith) ?_
    rw [abs_of_nonneg hquotient]
    exact hquotient'.trans (by norm_num)
  refine ⟨nonnegative_of_value hfinite ?_, ?_⟩
  · rw [hvalue]
    exact rounded_nonneg hquotient
  · rw [hvalue]
    exact rounded_le_natCast (by norm_num) hquotient'

/-- **A fraction of a scale that has been lowered does not lead out of the range.** -/
theorem value_fraction_mul_add {f scale : Binary64} (hf : Between 0 Draw.greatestFraction f)
    (hscale : scale.Nonnegative) (hsmall : scale.value ≤ (2 ^ 42 : ℕ)) (hlow : low.Moderate) :
    (f * scale + low).isFinite = true ∧ low.value ≤ (f * scale + low).value ∧
      (scale * Draw.greatestFraction + low).isFinite = true ∧
      (f * scale + low).value ≤ (scale * Draw.greatestFraction + low).value := by
  have hgreatest := Draw.greatestFraction_bounds.1
  obtain ⟨-, hone⟩ := Draw.value_greatestFraction
  have hf₀ : 0 ≤ f.value := by
    rw [hf.unsigned.value_eq]
    exact div_nonneg (Nat.cast_nonneg _) one_cast_pos.le
  have hf₁ : f.value ≤ Draw.greatestFraction.value := by
    rw [hf.unsigned.value_eq, hgreatest.value_eq, div_le_div_iff_of_pos_right one_cast_pos]
    exact Nat.cast_le.mpr hf.le_high
  have hscale₀ := hscale.value_nonneg
  -- a fraction of the scale is as moderate as the scale is
  have hfraction : ∀ r, 0 ≤ r → r ≤ 1 → |r * scale.value| ≤ (2 ^ 50 : ℕ) := by
    intro r h0 h1
    rw [abs_of_nonneg (mul_nonneg h0 hscale₀)]
    calc r * scale.value ≤ scale.value := mul_le_of_le_one_left hscale₀ h1
      _ ≤ (2 ^ 42 : ℕ) := hsmall
      _ ≤ (2 ^ 50 : ℕ) := by norm_num
  have hsum : Rounds (f * scale + low) (rounded (f.value * scale.value) + low.value) :=
    rounds_mul_add hf.unsigned.1 hscale.1 (hfraction _ hf₀ (hf₁.trans hone)) hlow
  have hend : Rounds (scale * Draw.greatestFraction + low)
      (rounded (Draw.greatestFraction.value * scale.value) + low.value) := by
    rw [mul_comm]
    refine rounds_mul_add hscale.1 hgreatest.1 ?_ hlow
    rw [mul_comm]
    exact hfraction _ (hf₀.trans hf₁) hone
  have hproduct₀ := rounded_nonneg (mul_nonneg hf₀ hscale₀)
  have hproduct₁ := rounded_mono (mul_le_mul_of_nonneg_right hf₁ hscale₀)
  refine ⟨hsum.1, ?_, hend.1, ?_⟩
  · rw [hsum.2, ← rounded_value low]
    exact rounded_mono (by simp; linarith)
  · rw [hsum.2, hend.2]
    exact rounded_mono (by linarith)

/-- **A range between moderate bounds leaves no fraction out of it.** -/
theorem of?_between (hlow : low.Moderate) (hhigh : high.Moderate) (hle : low.le high = true) :
    ∃ range, of? low high = some range ∧ ∀ f, Between 0 Draw.greatestFraction f →
      (f * range.scale + range.low).isFinite = true ∧
        low.value ≤ (f * range.scale + range.low).value ∧
        (f * range.scale + range.low).value ≤ high.value := by
  obtain ⟨hscale, hsmall⟩ := rounds_scale hlow hhigh hle
  refine ⟨_, if_pos (by rw [hle, hscale.1]; rfl), fun f hf => ?_⟩
  -- a scale of zero is low enough, since the lower bound is
  have hzero : ∀ y : Binary64, y.isFinite = true → y.value = 0 →
      high.lt (y * Draw.greatestFraction + low) = false := by
    intro y hy h0
    have hsum := rounds_mul_add hy Draw.greatestFraction_bounds.1.1 (by simp [h0]) hlow
    rw [← Bool.not_eq_true, lt_iff_value hhigh.1 hsum.1, hsum.2, h0]
    simpa using (le_iff_value hlow.1 hhigh.1).mp hle
  obtain ⟨hlowered, hless, hnot⟩ := lowered_nonnegative hzero hscale
  dsimp only
  generalize lowered _ _ = scale at *
  obtain ⟨hfinite, habove, hend, hbelow⟩ :=
    value_fraction_mul_add hf hlowered (hless.trans hsmall) hlow
  rw [← Bool.not_eq_true, lt_iff_value hhigh.1 hend, not_lt] at hnot
  exact ⟨hfinite, habove, hbelow.trans hnot⟩

/-! ## Rounding keeps the range -/

/-- **A rounded number of a range lies between its bounds**, if rounding does not move
these. -/
theorem drawRounded_between {places : ℕ} (hplaces : places ≤ 2) (hlow : low.Moderate)
    (hhigh : high.Moderate) (hle : low.le high = true) (hlow' : low.roundTo places = low)
    (hhigh' : high.roundTo places = high) :
    ∃ range, of? low high = some range ∧
      (range.drawRounded places).Gives (fun _ => False)
        (fun x => low.le x = true ∧ x.le high = true) := by
  obtain ⟨range, hrange, hbetween⟩ := of?_between hlow hhigh hle
  refine ⟨range, hrange, Draw.Gives.bind (P := fun x => x.isFinite = true ∧
    low.value ≤ x.value ∧ x.value ≤ high.value) ?_ fun x hx => Draw.gives_pure ?_⟩
  · exact Draw.fraction_gives.bind fun f hf => Draw.gives_pure (hbetween f hf)
  · obtain ⟨hfinite, habove, hbelow⟩ := hx
    have hmoderate : x.Moderate := by
      have hlow₀ := (abs_le.mp hlow.2).1
      have hhigh₀ := (abs_le.mp hhigh.2).2
      exact ⟨hfinite, abs_le.mpr ⟨by linarith, by linarith⟩⟩
    constructor
    · rw [← hlow']
      exact roundTo_mono hplaces hlow hmoderate ((le_iff_value hlow.1 hfinite).mpr habove)
    · rw [← hhigh']
      exact roundTo_mono hplaces hmoderate hhigh ((le_iff_value hfinite hhigh.1).mpr hbelow)

/-- **Rounding to decimal places keeps the order, and with it the range.** Moderate
numbers that are rounded to two places at most stay in order. A rounded number is not
changed by rounding it again, and it is the nearest one to a whole number of units of
the last place, which the number itself was near to. And between two bounds that
rounding does not move a number can be drawn, and whatever is read for it, it lies between
them when it has been rounded. -/
theorem roundTo_keepsRange {places : ℕ} (hplaces : places ≤ 2) :
    (∀ x y : Binary64, x.Moderate → y.Moderate → x.le y = true →
      (x.roundTo places).le (y.roundTo places) = true) ∧
    (∀ x : Binary64, x.Moderate →
      (x.roundTo places).roundTo places = x.roundTo places ∧
      ∃ k : ℤ, |k - x.value * 10 ^ places| ≤ 1 / 2 + 1 / 2 ^ 6 ∧
        IsNearest (x.roundTo places) (k / 10 ^ places)) ∧
    ∀ low high : Binary64, low.Moderate → high.Moderate → low.le high = true →
      low.roundTo places = low → high.roundTo places = high →
      ∃ range, of? low high = some range ∧ ∀ stream, ∃ x rest,
        (range.drawRounded places).readFrom stream = (.ok x, rest) ∧
          low.le x = true ∧ x.le high = true := by
  refine ⟨fun x y hx hy h => roundTo_mono hplaces hx hy h,
    fun x hx => ⟨roundTo_roundTo hplaces hx, unitsAt places x.value,
      unitsAt_near hplaces hx.2, (rounds_roundTo hplaces hx).isNearest⟩,
    fun low high hlow hhigh hle hlow' hhigh' => ?_⟩
  obtain ⟨range, hrange, hgives⟩ := drawRounded_between hplaces hlow hhigh hle hlow' hhigh'
  exact ⟨range, hrange, hgives.reads⟩

/-- A rating of two places that is drawn between 3.8, which is not exact, and 5. -/
theorem roundTo_keepsRange_ratings :
    2 ≤ 2 ∧ Moderate 3.8 ∧ Moderate 5 ∧ le 3.8 5 = true ∧
      roundTo 3.8 (2 : ℕ) = 3.8 ∧ roundTo 5 (2 : ℕ) = 5 ∧
      ∃ range, of? 3.8 5 = some range ∧ ∀ stream, ∃ x rest,
        (range.drawRounded (2 : ℕ)).readFrom stream = (.ok x, rest) ∧
          le 3.8 x = true ∧ x.le 5 = true := by
  have hlow : Moderate 3.8 := by decide +kernel
  have hhigh : Moderate 5 := by decide +kernel
  have hlow' : roundTo 3.8 (2 : ℕ) = 3.8 := by decide +kernel
  have hhigh' : roundTo 5 (2 : ℕ) = 5 := by decide +kernel
  have hle : le 3.8 5 = true := by decide +kernel
  exact ⟨le_refl 2, hlow, hhigh, hle, hlow', hhigh',
    (roundTo_keepsRange (le_refl 2)).2.2 3.8 5 hlow hhigh hle hlow' hhigh'⟩

end UniformRange

end Academy
