import Academy.Proofs.Binary64.Value
import Mathlib.Data.Int.ConditionallyCompleteOrder
import Mathlib.Tactic.IntervalCases

/-!
# Rounding to decimal places by values

A number is rounded to decimal places with three roundings that are not
asked for – the scaled number, the whole number and the quotient – and one
that is. Told by values, the four of them are two functions of a rational: how
many units of the last place it comes to (`unitsAt`), and what so many units
are rounded to. Both keep the order, since all that they are made of does.

Where the number is moderate the roundings that are not asked for are too
small to be seen in the count of units: the quotient of a count is nearer to
that count than to any other one, with room to spare (`unitsAt_rounded`). So a
number that has been rounded is not changed by rounding it again.
-/

namespace Academy.Binary64

/-! ## The nearest whole number -/

/-- **The nearest whole number**, the one farther from zero of two equally near. -/
def nearestWhole (q : ℚ) : ℤ :=
  if 0 ≤ q then ⌊q + 1 / 2⌋ else ⌈q - 1 / 2⌉

theorem nearestWhole_of_nonneg {q : ℚ} (h : 0 ≤ q) : nearestWhole q = ⌊q + 1 / 2⌋ :=
  if_pos h

@[simp] theorem nearestWhole_neg (q : ℚ) : nearestWhole (-q) = -nearestWhole q := by
  have hpos : ∀ r : ℚ, 0 < r → nearestWhole (-r) = -⌊r + 1 / 2⌋ := by
    intro r hr
    rw [nearestWhole, if_neg (by linarith), ← Int.ceil_neg]
    congr 1
    ring
  rcases lt_trichotomy q 0 with hlt | rfl | hgt
  · rw [← neg_neg (nearestWhole (-q)), nearestWhole_of_nonneg (by linarith),
      ← hpos (-q) (by linarith), neg_neg]
  · norm_num [nearestWhole]
  · rw [hpos q hgt, nearestWhole_of_nonneg hgt.le]

theorem nearestWhole_mono : Monotone nearestWhole := by
  refine monotone_of_odd_of_monotoneOn_nonneg nearestWhole_neg fun p hp q hq hle => ?_
  rw [nearestWhole_of_nonneg hp, nearestWhole_of_nonneg hq]
  exact Int.floor_mono (by linarith)

theorem abs_nearestWhole_sub (q : ℚ) : |(nearestWhole q : ℚ) - q| ≤ 1 / 2 := by
  unfold nearestWhole
  split
  · have hlow := Int.sub_one_lt_floor (q + 1 / 2)
    have hhigh := Int.floor_le (q + 1 / 2)
    exact abs_le.mpr ⟨by linarith, by linarith⟩
  · have hlow := Int.le_ceil (q - 1 / 2)
    have hhigh := Int.ceil_lt_add_one (q - 1 / 2)
    exact abs_le.mpr ⟨by linarith, by linarith⟩

/-- **What is nearer than a half is nearest.** -/
theorem nearestWhole_eq {q : ℚ} {k : ℤ} (h : |q - k| < 1 / 2) : nearestWhole q = k := by
  have hclose : |(nearestWhole q : ℚ) - k| < 1 := by
    calc |(nearestWhole q : ℚ) - k| ≤ |(nearestWhole q : ℚ) - q| + |q - k| := abs_sub_le _ _ _
      _ < 1 := by linarith [abs_nearestWhole_sub q]
  have hclose' : |nearestWhole q - k| < 1 := by exact_mod_cast hclose
  exact sub_eq_zero.mp (Int.abs_lt_one_iff.mp hclose')

@[simp] theorem nearestWhole_intCast (k : ℤ) : nearestWhole k = k :=
  nearestWhole_eq (by norm_num)

/-- A whole bound is kept. -/
theorem abs_nearestWhole_le {q : ℚ} {n : ℕ} (h : |q| ≤ n) : |nearestWhole q| ≤ n := by
  obtain ⟨hlow, hhigh⟩ := abs_le.mp h
  refine abs_le.mpr ⟨?_, ?_⟩
  · rw [← nearestWhole_intCast (-n : ℤ)]
    exact nearestWhole_mono (by exact_mod_cast hlow)
  · rw [← nearestWhole_intCast n]
    exact nearestWhole_mono (by exact_mod_cast hhigh)

/-- **The whole ones of a number are the nearest whole number to its magnitude.** -/
theorem wholes_eq (x : Binary64) : (x.wholes : ℤ) = nearestWhole (x.magnitude / one) := by
  have hone := one_cast_pos
  rw [nearestWhole_of_nonneg (by positivity)]
  have hsum : (x.magnitude : ℚ) / one + 1 / 2
      = ((2 * x.magnitude + one : ℕ) : ℚ) / (2 * one : ℕ) := by
    push_cast
    field_simp
  rw [hsum, Rat.floor_natCast_div_natCast]
  unfold wholes
  rfl

theorem nearestWhole_signFactor_mul (s : Bool) (q : ℚ) :
    (nearestWhole (signFactor s * q) : ℚ) = signFactor s * nearestWhole q := by
  cases s
  · simp [signFactor]
  · simp [signFactor]

theorem toWhole_eq_round {x : Binary64} (hx : x.isFinite = true) :
    x.toWhole = round x.isNegative (x.wholes * one) 1 := by
  obtain ⟨s, m, p, h, rfl⟩ := exists_eq_finite hx
  rfl

/-- **A whole number is rounded once.** -/
theorem rounds_toWhole {x : Binary64} (hx : x.isFinite = true)
    (hsmall : |(nearestWhole x.value : ℚ)| ≤ 2 ^ 100) : Rounds x.toWhole (nearestWhole x.value) := by
  rw [toWhole_eq_round hx]
  refine rounds_round _ Nat.one_pos ?_ hsmall
  rw [value_eq, nearestWhole_signFactor_mul, ← wholes_eq, Nat.cast_one, one_mul, Nat.cast_mul,
    mul_div_cancel_right₀ _ one_cast_pos.ne', Int.cast_natCast]

/-! ## Units of a decimal place -/

/-- **How many units of a decimal place a rational comes to** when it is rounded to
so many places. -/
def unitsAt (places : ℕ) (q : ℚ) : ℤ :=
  nearestWhole (rounded (q * 10 ^ places))

theorem unitsAt_mono (places : ℕ) : Monotone (unitsAt places) := fun p q h =>
  nearestWhole_mono (rounded_mono (mul_le_mul_of_nonneg_right h (by positivity)))

variable {places : ℕ}

theorem placesFactor_eq (hplaces : places ≤ 2) :
    placesFactor places = ofNat (10 ^ places) := by
  interval_cases places <;> decide +kernel

theorem ten_pow_le (hplaces : places ≤ 2) : (10 ^ places : ℚ) ≤ 100 := by
  interval_cases places <;> norm_num

theorem value_placesFactor (hplaces : places ≤ 2) : (placesFactor places).value = 10 ^ places := by
  rw [placesFactor_eq hplaces, value_ofNat]
  · push_cast
    rfl
  · interval_cases places <;> norm_num

theorem unsigned_placesFactor (hplaces : places ≤ 2) : (placesFactor places).Unsigned := by
  rw [placesFactor_eq hplaces]
  refine (ofNat_exact ?_).1
  interval_cases places <;> norm_num

/-- The units that a moderate number comes to are exact. -/
theorem units_lt (hplaces : places ≤ 2) : 2 ^ 40 * 10 ^ places < 2 ^ 53 := by
  interval_cases places <;> norm_num

theorem abs_mul_ten_pow_le (places : ℕ) {q : ℚ} (h : |q| ≤ 2 ^ 40) :
    |q * 10 ^ places| ≤ (2 ^ 40 * 10 ^ places : ℕ) := by
  rw [abs_mul, abs_of_pos (by positivity : (0 : ℚ) < 10 ^ places)]
  push_cast
  exact mul_le_mul_of_nonneg_right h (by positivity)

theorem abs_unitsAt_le (hplaces : places ≤ 2) {q : ℚ} (h : |q| ≤ 2 ^ 40) :
    |unitsAt places q| ≤ (2 ^ 40 * 10 ^ places : ℕ) :=
  abs_nearestWhole_le (abs_rounded_le (units_lt hplaces) (abs_mul_ten_pow_le places h))

/-- What scaling loses is much less than a half. -/
theorem scaled_near (hplaces : places ≤ 2) {q : ℚ} (h : |q| ≤ 2 ^ 40) :
    |rounded (q * 10 ^ places) - q * 10 ^ places| ≤ 1 / 2 ^ 6 := by
  refine rounded_near (j := 5) (by norm_num) ?_
  have hscaled := abs_mul_ten_pow_le places h
  have hhundred := ten_pow_le hplaces
  push_cast at hscaled
  linarith

/-- **The count of units is near.** -/
theorem unitsAt_near (hplaces : places ≤ 2) {q : ℚ} (h : |q| ≤ 2 ^ 40) :
    |unitsAt places q - q * 10 ^ places| ≤ 1 / 2 + 1 / 2 ^ 6 := by
  calc |unitsAt places q - q * 10 ^ places|
      ≤ |unitsAt places q - rounded (q * 10 ^ places)|
        + |rounded (q * 10 ^ places) - q * 10 ^ places| := abs_sub_le _ _ _
    _ ≤ 1 / 2 + 1 / 2 ^ 6 := add_le_add (abs_nearestWhole_sub _) (scaled_near hplaces h)

theorem abs_unitsAt_div_le (hplaces : places ≤ 2) {q : ℚ} (h : |q| ≤ 2 ^ 40) :
    |(unitsAt places q : ℚ) / 10 ^ places| ≤ 2 ^ 40 := by
  have hpow : (0 : ℚ) < 10 ^ places := by positivity
  rw [abs_div, abs_of_pos hpow, div_le_iff₀ hpow]
  exact_mod_cast abs_unitsAt_le hplaces h

/-! ## Numbers of moderate size -/

/-- **A number of moderate size**, which is small enough for its hundredths to be counted
with many digits to spare. -/
def Moderate (x : Binary64) : Prop :=
  x.isFinite = true ∧ |x.value| ≤ 2 ^ 40

theorem moderate_iff (x : Binary64) :
    x.isFinite = true ∧ x.magnitude ≤ 2 ^ 40 * one ↔ x.Moderate := by
  have hone := one_cast_pos
  unfold Moderate
  rw [value_eq, abs_mul, abs_signFactor, one_mul, abs_of_nonneg (by positivity),
    div_le_iff₀ hone]
  exact and_congr_right fun _ => by exact_mod_cast Iff.rfl

instance (x : Binary64) : Decidable x.Moderate :=
  decidable_of_iff _ x.moderate_iff

section Steps

variable {x : Binary64} (hplaces : places ≤ 2) (hx : x.Moderate)

include hplaces hx

theorem rounds_scaled : Rounds (x * placesFactor places) (x.value * 10 ^ places) := by
  rw [← value_placesFactor hplaces]
  refine rounds_mul hx.1 (unsigned_placesFactor hplaces).1 ?_
  rw [value_placesFactor hplaces]
  refine (abs_mul_ten_pow_le places hx.2).trans ?_
  exact_mod_cast (units_lt hplaces).le.trans (by norm_num)

/-- The whole number is exact. -/
theorem value_toWhole_scaled :
    (x * placesFactor places).toWhole.isFinite = true ∧
      (x * placesFactor places).toWhole.value = unitsAt places x.value := by
  have hscaled := rounds_scaled hplaces hx
  have hunits := abs_unitsAt_le hplaces hx.2
  have hunits' : |(unitsAt places x.value : ℚ)| ≤ (2 ^ 40 * 10 ^ places : ℕ) := by
    exact_mod_cast hunits
  have hwhole := rounds_toWhole hscaled.1
  rw [hscaled.2] at hwhole
  obtain ⟨hfinite, hvalue⟩ := hwhole (hunits'.trans
    (by exact_mod_cast (units_lt hplaces).le.trans (by norm_num)))
  refine ⟨hfinite, hvalue.trans (rounded_intCast ?_)⟩
  rw [Int.abs_eq_natAbs] at hunits
  exact lt_of_le_of_lt (Int.ofNat_le.mp hunits) (units_lt hplaces)

/-- **A number rounded to decimal places is so many units of the last place**, rounded
once. -/
theorem rounds_roundTo : Rounds (x.roundTo places) (unitsAt places x.value / 10 ^ places) := by
  obtain ⟨hfinite, hvalue⟩ := value_toWhole_scaled hplaces hx
  have hfactor := value_placesFactor hplaces
  unfold roundTo
  rw [← hfactor, ← hvalue]
  refine rounds_div hfinite (unsigned_placesFactor hplaces).1 ?_ ?_
  · rw [hfactor]
    positivity
  · rw [hfactor, hvalue]
    exact (abs_unitsAt_div_le hplaces hx.2).trans (by norm_num)

/-- Rounding to decimal places keeps the sign. -/
theorem isNegative_roundTo : (x.roundTo places).isNegative = x.isNegative := by
  have hfactor := unsigned_placesFactor hplaces
  have hne : (placesFactor places).magnitude ≠ 0 := by
    refine magnitude_ne_zero ?_
    rw [value_placesFactor hplaces]
    positivity
  unfold roundTo
  rw [div_eq_round (value_toWhole_scaled hplaces hx).1 hfactor.1 hne,
    isNegative_round _ _ (Nat.pos_of_ne_zero hne),
    toWhole_eq_round (rounds_scaled hplaces hx).1, isNegative_round _ _ Nat.one_pos,
    mul_eq_round hx.1 hfactor.1, isNegative_round _ _ one_pos, hfactor.2, Bool.bne_false,
    Bool.bne_false]

/-- What is rounded stays moderate. -/
theorem Moderate.roundTo : (x.roundTo places).Moderate := by
  have h := rounds_roundTo hplaces hx
  have hunits := abs_unitsAt_div_le hplaces hx.2
  refine ⟨h.1, ?_⟩
  rw [h.2]
  exact_mod_cast abs_rounded_le (n := 2 ^ 40) (by norm_num) (by exact_mod_cast hunits)

end Steps

/-- **Moderate numbers are rounded to decimal places in order.** -/
theorem roundTo_mono (hplaces : places ≤ 2) {x y : Binary64} (hx : x.Moderate) (hy : y.Moderate)
    (h : x.le y = true) : (x.roundTo places).le (y.roundTo places) = true := by
  have hrx := rounds_roundTo hplaces hx
  have hry := rounds_roundTo hplaces hy
  rw [le_iff_value hx.1 hy.1] at h
  rw [le_iff_value hrx.1 hry.1, hrx.2, hry.2]
  refine rounded_mono (div_le_div_of_nonneg_right ?_ (by positivity))
  exact_mod_cast unitsAt_mono places h

/-! ## Rounding again -/

/-- **So many units, rounded, still come to so many units.** -/
theorem unitsAt_rounded (hplaces : places ≤ 2) {k : ℤ} (hk : |(k : ℚ) / 10 ^ places| ≤ 2 ^ 40) :
    unitsAt places (rounded (k / 10 ^ places)) = k := by
  have hpow : (0 : ℚ) < 10 ^ places := by positivity
  have hhundred := ten_pow_le hplaces
  generalize hq : (k : ℚ) / 10 ^ places = q at *
  have hunits : (k : ℚ) = q * 10 ^ places := by rw [← hq, div_mul_cancel₀ _ hpow.ne']
  refine nearestWhole_eq ?_
  rw [hunits]
  have hquotient : |rounded q - q| ≤ 1 / 2 ^ 11 :=
    rounded_near (j := 10) (by norm_num) (by linarith)
  have hrounded : |rounded q| ≤ (2 ^ 40 : ℕ) := abs_rounded_le (by norm_num) (by exact_mod_cast hk)
  generalize rounded q = r at *
  have hproduct := scaled_near hplaces (q := r) (by exact_mod_cast hrounded)
  have hshift : |r * 10 ^ places - q * 10 ^ places| ≤ 1 / 2 ^ 11 * 100 := by
    rw [← sub_mul, abs_mul, abs_of_pos hpow]
    exact mul_le_mul hquotient hhundred hpow.le (by norm_num)
  calc |rounded (r * 10 ^ places) - q * 10 ^ places|
      ≤ |rounded (r * 10 ^ places) - r * 10 ^ places| + |r * 10 ^ places - q * 10 ^ places| :=
        abs_sub_le _ _ _
    _ < 1 / 2 := by linarith

/-- **A number of decimal places is not changed by rounding it to these places.** -/
theorem roundTo_roundTo (hplaces : places ≤ 2) {x : Binary64} (hx : x.Moderate) :
    (x.roundTo places).roundTo places = x.roundTo places := by
  have h := rounds_roundTo hplaces hx
  have hmoderate := hx.roundTo hplaces
  have h' := rounds_roundTo hplaces hmoderate
  refine eq_of_value h'.1 h.1 (isNegative_roundTo hplaces hmoderate) ?_
  rw [h'.2, h.2, unitsAt_rounded hplaces (abs_unitsAt_div_le hplaces hx.2)]

end Academy.Binary64
