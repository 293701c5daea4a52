import Academy.Proofs.Binary64.Nonnegative
import Academy.Proofs.Binary64.Places
import Mathlib.Data.Rat.Floor
import Mathlib.Order.Monotone.Odd
import Mathlib.Tactic.FieldSimp
import Mathlib.Tactic.Positivity
import Mathlib.Tactic.WLOG

/-!
# The value of a number

Numbers stand for rationals, and so does everything that is computed with them
until it is rounded. Which rational a number is (`value`) and which one a rational is
rounded to (`rounded`) is all that a chain of operations has to be known by: each
operation is the exact one, rounded (`Rounds`).

That rounding keeps the order of quotients of units carries over to rationals, of
either sign since rounding knows none. With the numbers themselves, which it leaves as they
are, this gives the bounds of what is computed; and that it is near
(`rounded_near`) gives the errors. Where a number could be infinite the rational
is asked to be small, and `2 ^ 100` is more than is ever needed.
-/

namespace Academy.Binary64

/-! ## Values -/

/-- **The value of a finite number.** -/
def value (x : Binary64) : ℚ :=
  x.scaled / one

theorem one_cast_pos : (0 : ℚ) < one :=
  Nat.cast_pos.mpr one_pos

theorem le_iff_value {x y : Binary64} (hx : x.isFinite = true) (hy : y.isFinite = true) :
    x.le y = true ↔ x.value ≤ y.value := by
  unfold value
  rw [le_iff_scaled hx hy, div_le_div_iff_of_pos_right one_cast_pos, Int.cast_le]

theorem lt_iff_value {x y : Binary64} (hx : x.isFinite = true) (hy : y.isFinite = true) :
    x.lt y = true ↔ x.value < y.value := by
  unfold value
  rw [lt_iff_scaled hx hy, div_lt_div_iff_of_pos_right one_cast_pos, Int.cast_lt]

@[simp] theorem value_zero : (0 : Binary64).value = 0 := by
  simp [value]

theorem Nonnegative.value_nonneg {x : Binary64} (hx : x.Nonnegative) : 0 ≤ x.value :=
  div_nonneg (Int.cast_nonneg hx.2) one_cast_pos.le

theorem nonnegative_of_value {x : Binary64} (hx : x.isFinite = true) (h : 0 ≤ x.value) :
    x.Nonnegative := by
  refine ⟨hx, ?_⟩
  rw [value, le_div_iff₀ one_cast_pos, zero_mul] at h
  exact_mod_cast h

theorem Unsigned.value_eq {x : Binary64} (hx : x.Unsigned) : x.value = x.magnitude / one := by
  rw [value, hx.scaled_eq, Int.cast_natCast]

/-- The factor that a sign is. -/
def signFactor (negative : Bool) : ℚ :=
  if negative then -1 else 1

theorem signFactor_xor (s t : Bool) : signFactor (s != t) = signFactor s * signFactor t := by
  cases s <;> cases t <;> norm_num [signFactor]

@[simp] theorem abs_signFactor (s : Bool) : |signFactor s| = 1 := by
  cases s <;> simp [signFactor]

theorem value_eq (x : Binary64) : x.value = signFactor x.isNegative * (x.magnitude / one) := by
  unfold value scaled signFactor
  split
  · push_cast
    ring
  · push_cast
    ring

theorem exists_eq_finite {x : Binary64} (hx : x.isFinite = true) :
    ∃ s m p h, x = finite s m p h := by
  cases x with
  | finite s m p h => exact ⟨s, m, p, h, rfl⟩
  | infinite s => exact nomatch hx
  | nan => exact nomatch hx

/-- A magnitude is written with one significand and one power. -/
theorem Canonical.unique {m p n q : ℕ} (h : Canonical m p) (h' : Canonical n q)
    (heq : m * 2 ^ p = n * 2 ^ q) : m = n ∧ p = q := by
  wlog hle : p ≤ q generalizing m p n q
  · exact (this h' h heq.symm (le_of_not_ge hle)).imp Eq.symm Eq.symm
  obtain ⟨j, rfl⟩ := Nat.exists_eq_add_of_le hle
  rw [pow_add, Nat.mul_left_comm, Nat.mul_comm m] at heq
  have hm : m = n * 2 ^ j := Nat.eq_of_mul_eq_mul_left (Nat.two_pow_pos p) heq
  rcases Nat.eq_zero_or_pos j with rfl | hj
  · exact ⟨hm.trans (Nat.mul_one n), rfl⟩
  · -- a greater power leaves all 53 digits to the significand, and one more to the other
    exfalso
    have hn : 2 ^ 52 ≤ n := h'.2.2.resolve_right (by omega)
    have hm' : m < 2 ^ 53 := h.1
    have : n * 2 ≤ n * 2 ^ j := Nat.mul_le_mul_left n (Nat.le_self_pow hj.ne' 2)
    omega

/-- **A finite number is given by its sign and its value.** -/
theorem eq_of_value {x y : Binary64} (hx : x.isFinite = true) (hy : y.isFinite = true)
    (hsign : x.isNegative = y.isNegative) (hvalue : x.value = y.value) : x = y := by
  have hscaled : x.scaled = y.scaled := by
    rw [value, value, div_left_inj' one_cast_pos.ne'] at hvalue
    exact_mod_cast hvalue
  have hmagnitude : x.magnitude = y.magnitude := by
    unfold scaled at hscaled
    rw [hsign] at hscaled
    split at hscaled <;> omega
  obtain ⟨s, m, p, h, rfl⟩ := exists_eq_finite hx
  obtain ⟨t, n, q, h', rfl⟩ := exists_eq_finite hy
  obtain ⟨rfl, rfl⟩ := h.unique h' hmagnitude
  obtain rfl : s = t := hsign
  rfl

/-! ## What a rational is rounded to -/

/-- **What a rational is rounded to**, if numbers could be as large as they like. -/
def rounded (q : ℚ) : ℚ :=
  q.num.sign * roundedUnits (q.num.natAbs * one) q.den / one

/-- Rounding knows no sign. -/
@[simp] theorem rounded_neg (q : ℚ) : rounded (-q) = -rounded q := by
  unfold rounded
  rw [Rat.num_neg_eq_neg_num, Rat.den_neg_eq_den, Int.sign_neg, Int.natAbs_neg]
  push_cast
  ring

/-- A quotient is rounded as its units are, whatever it is written with. -/
theorem rounded_units (num : ℕ) {den : ℕ} (hden : 0 < den) :
    rounded (num / (den * one)) = roundedUnits num den / one := by
  have hone := one_cast_pos
  have hden' : (0 : ℚ) < den := Nat.cast_pos.mpr hden
  generalize hq : (num : ℚ) / (den * one) = q
  have hnonneg : 0 ≤ q := hq ▸ by positivity
  obtain ⟨k, hk⟩ := Int.eq_ofNat_of_zero_le (Rat.num_nonneg.mpr hnonneg)
  -- both quotients are the same, so each of them is rounded to what the other is
  have hcross : k * one * den = num * q.den := by
    have h : (k : ℚ) / q.den = num / (den * one) := by
      rw [hq, ← Int.cast_natCast k, ← hk, Rat.num_div_den]
    rw [div_eq_div_iff (Nat.cast_ne_zero.mpr q.den_nz) (by positivity), ← mul_assoc,
      mul_right_comm] at h
    exact_mod_cast h
  have hunits : roundedUnits (k * one) q.den = roundedUnits num den :=
    Nat.le_antisymm (roundedUnits_mono q.den_pos hden hcross.le)
      (roundedUnits_mono hden q.den_pos hcross.ge)
  unfold rounded
  rw [hk, Int.natAbs_natCast, hunits]
  rcases Nat.eq_zero_or_pos k with rfl | hpos
  · have hzero : num = 0 := by
      rw [Nat.zero_mul, Nat.zero_mul] at hcross
      exact (Nat.mul_eq_zero.mp hcross.symm).resolve_right q.den_nz
    rw [hzero, roundedUnits_of_eq (m := 0) (k := 0) hden (by decide) (Nat.zero_mul _).symm]
    simp
  · rw [Int.sign_natCast_of_ne_zero hpos.ne', Int.cast_one, one_mul]

/-- A rational that is not negative is a quotient of units. -/
theorem exists_units {q : ℚ} (h : 0 ≤ q) : ∃ num den : ℕ, 0 < den ∧ q = num / (den * one) := by
  refine ⟨q.num.natAbs * one, q.den, q.den_pos, ?_⟩
  have hone := one_cast_pos
  have hden : (q.den : ℚ) ≠ 0 := Nat.cast_ne_zero.mpr q.den_nz
  rw [Nat.cast_mul, mul_div_mul_right _ _ hone.ne', Nat.cast_natAbs,
    abs_of_nonneg (Rat.num_nonneg.mpr h), Rat.num_div_den]

/-- **Rounding keeps the order of rationals.** -/
theorem rounded_mono : Monotone rounded := by
  refine monotone_of_odd_of_monotoneOn_nonneg rounded_neg fun p hp q hq hle => ?_
  obtain ⟨n, d, hd, rfl⟩ := exists_units hp
  obtain ⟨n', d', hd', rfl⟩ := exists_units hq
  have hone := one_cast_pos
  have hd₀ : (0 : ℚ) < d := Nat.cast_pos.mpr hd
  have hd₀' : (0 : ℚ) < d' := Nat.cast_pos.mpr hd'
  rw [rounded_units n hd, rounded_units n' hd', div_le_div_iff_of_pos_right hone, Nat.cast_le]
  refine roundedUnits_mono hd hd' ?_
  rw [← div_div, ← div_div, div_le_div_iff_of_pos_right hone, div_le_div_iff₀ hd₀ hd₀'] at hle
  exact_mod_cast hle

theorem rounded_signFactor_mul (s : Bool) (q : ℚ) :
    rounded (signFactor s * q) = signFactor s * rounded q := by
  cases s <;> simp [signFactor]

/-- **A number needs no rounding.** -/
@[simp] theorem rounded_value (x : Binary64) : rounded x.value = x.value := by
  have h := rounded_units x.magnitude Nat.one_pos
  rw [Nat.cast_one, one_mul, roundedUnits_magnitude] at h
  rw [value_eq, rounded_signFactor_mul, h]

/-- Whole numbers of 53 digits are exact. -/
theorem value_ofNat {n : ℕ} (hn : n < 2 ^ 53) : (ofNat n).value = n := by
  obtain ⟨hunsigned, hmagnitude⟩ := ofNat_exact hn
  unfold value
  rw [hunsigned.scaled_eq, hmagnitude, Int.cast_natCast, Nat.cast_mul,
    mul_div_cancel_right₀ _ one_cast_pos.ne']

theorem rounded_natCast {n : ℕ} (hn : n < 2 ^ 53) : rounded n = n := by
  rw [← value_ofNat hn]
  exact rounded_value _

theorem rounded_intCast {k : ℤ} (hk : k.natAbs < 2 ^ 53) : rounded k = k := by
  rcases Int.natAbs_eq k with h | h
  · rw [h, Int.cast_natCast, rounded_natCast hk]
  · rw [h, Int.cast_neg, rounded_neg, Int.cast_natCast, rounded_natCast hk]

@[simp] theorem rounded_zero : rounded 0 = 0 := by
  simpa using rounded_natCast (n := 0) (by decide)

theorem rounded_nonneg {q : ℚ} (h : 0 ≤ q) : 0 ≤ rounded q := by
  simpa using rounded_mono h

/-- **Whole bounds of 53 digits** are kept by rounding. -/
theorem rounded_le_natCast {q : ℚ} {n : ℕ} (hn : n < 2 ^ 53) (h : q ≤ n) : rounded q ≤ n := by
  rw [← rounded_natCast hn]
  exact rounded_mono h

theorem abs_rounded_le {q : ℚ} {n : ℕ} (hn : n < 2 ^ 53) (h : |q| ≤ n) : |rounded q| ≤ n := by
  obtain ⟨hneg, hpos⟩ := abs_le'.mp h
  refine abs_le'.mpr ⟨rounded_le_natCast hn hneg, ?_⟩
  simpa using rounded_le_natCast hn hpos

/-- Rounding moves a magnitude as far as it moves the rational. -/
theorem abs_rounded_sub (q : ℚ) : |rounded q - q| = |rounded (abs q) - abs q| := by
  rcases abs_choice q with h | h
  · rw [h]
  · rw [h, rounded_neg, ← abs_neg]
    congr 1
    ring

/-- **Rounding is near**: by half a step at most, where the step is as fine as 53
digits allow. -/
theorem rounded_near {q : ℚ} {j : ℕ} (hj : j ≤ 1074) (h : |q| * 2 ^ j < 2 ^ 52) :
    |rounded q - q| ≤ 1 / 2 ^ (j + 1) := by
  rw [abs_rounded_sub]
  obtain ⟨num, den, hden, hq⟩ := exists_units (abs_nonneg q)
  rw [hq] at h ⊢
  rw [rounded_units num hden]
  obtain ⟨k, hk, hone⟩ := one_eq_pow
  obtain ⟨e, rfl⟩ := Nat.exists_eq_add_of_le' (hk ▸ hj : j ≤ k)
  have hpos := one_cast_pos
  have hden' : (0 : ℚ) < den := Nat.cast_pos.mpr hden
  have hcast : (one : ℚ) = 2 ^ e * 2 ^ j := by
    rw [hone, Nat.cast_pow, pow_add]
    rfl
  -- in units of `1 / (den * one)` a step is `den * 2 ^ e`
  have hnum : num < 2 ^ 52 * (den * 2 ^ e) := by
    rw [div_mul_eq_mul_div, div_lt_iff₀ (by positivity), hcast] at h
    have h' : (num : ℚ) * 2 ^ j < 2 ^ 52 * (den * 2 ^ e) * 2 ^ j := by linarith
    exact_mod_cast lt_of_mul_lt_mul_right h' (by positivity)
  obtain ⟨hlow, hhigh⟩ :=
    roundedUnits_near hden (Nat.le_mul_of_pos_right den (Nat.two_pow_pos e)) hnum
  have hlow' : (2 * num : ℚ) ≤ 2 * (roundedUnits num den * den) + den * 2 ^ e := by
    exact_mod_cast hlow
  have hhigh' : (2 * (roundedUnits num den * den) : ℚ) ≤ 2 * num + den * 2 ^ e := by
    exact_mod_cast hhigh
  have hsplit : (roundedUnits num den : ℚ) / one - num / (den * one)
      = (roundedUnits num den * den - num) / (den * one) := by
    field_simp
  rw [hsplit, abs_div, abs_of_pos (by positivity : (0 : ℚ) < den * one),
    div_le_div_iff₀ (by positivity) (by positivity), one_mul, hcast, pow_succ]
  have hdiff : |(roundedUnits num den : ℚ) * den - num| ≤ den * 2 ^ e / 2 :=
    abs_le.mpr ⟨by linarith, by linarith⟩
  calc |(roundedUnits num den : ℚ) * den - num| * (2 ^ j * 2)
      ≤ den * 2 ^ e / 2 * (2 ^ j * 2) := mul_le_mul_of_nonneg_right hdiff (by positivity)
    _ = den * (2 ^ e * 2 ^ j) := by ring

/-! ## Operations -/

/-- **The number that a rational is rounded to.** -/
def Rounds (x : Binary64) (q : ℚ) : Prop :=
  x.isFinite = true ∧ x.value = rounded q

theorem Rounds.near {x : Binary64} {q : ℚ} (h : Rounds x q) {j : ℕ} (hj : j ≤ 1074)
    (hsmall : |q| * 2 ^ j < 2 ^ 52) : |x.value - q| ≤ 1 / 2 ^ (j + 1) := by
  rw [h.2]
  exact rounded_near hj hsmall

/-- A quotient that is not far too large is rounded to a finite number of units. -/
theorem roundedUnits_lt_unitLimit {num den : ℕ} (hden : 0 < den)
    (hsmall : (num : ℚ) / (den * one) ≤ 2 ^ 100) : roundedUnits num den < unitLimit := by
  have hone := one_cast_pos
  have hden' : (0 : ℚ) < den := Nat.cast_pos.mpr hden
  obtain ⟨k, hk, hpow⟩ := one_eq_pow
  obtain ⟨l, hl, hlimit⟩ := unitLimit_eq_pow
  have hnum : num * 1 ≤ 2 ^ (100 + k) * den := by
    rw [div_le_iff₀ (mul_pos hden' hone), hpow] at hsmall
    rw [pow_add]
    have h : (num : ℚ) * 1 ≤ 2 ^ 100 * 2 ^ k * den := by
      push_cast at hsmall
      linarith
    exact_mod_cast h
  have hexact : roundedUnits (2 ^ (100 + k)) 1 = 1 * 2 ^ (100 + k) :=
    roundedUnits_of_eq Nat.one_pos (by decide) (by rw [Nat.one_mul, Nat.mul_one])
  calc roundedUnits num den ≤ roundedUnits (2 ^ (100 + k)) 1 :=
        roundedUnits_mono hden Nat.one_pos hnum
    _ = 2 ^ (100 + k) := hexact.trans (Nat.one_mul _)
    _ < 2 ^ (52 + l) := Nat.pow_lt_pow_right (by decide) (by omega)
    _ = unitLimit := (pow_add 2 52 l).trans hlimit.symm

/-- **A rounded quotient of units**, which is finite if it is not far too large. -/
theorem rounds_round (negative : Bool) {num den : ℕ} (hden : 0 < den) {q : ℚ}
    (hq : q = signFactor negative * (num / (den * one))) (hsmall : |q| ≤ 2 ^ 100) :
    Rounds (round negative num den) q := by
  have hone := one_cast_pos
  rw [hq, abs_mul, abs_signFactor, one_mul, abs_of_nonneg (by positivity)] at hsmall
  rcases round_cases negative num hden with ⟨hfinite, hsign, hmagnitude, -⟩ | ⟨-, hge⟩
  · refine ⟨hfinite, ?_⟩
    rw [value_eq, hsign, hmagnitude, hq, rounded_signFactor_mul, rounded_units num hden]
  · exact absurd hge (Nat.not_le.mpr (roundedUnits_lt_unitLimit hden hsmall))

/-- A rounded quotient of whole numbers. -/
theorem rounds_ratio (num : ℕ) {den : ℕ} (hden : 0 < den) (hsmall : (num : ℚ) / den ≤ 2 ^ 100) :
    Rounds (round false (num * one) den) (num / den) := by
  refine rounds_round false hden ?_ ?_
  · rw [Nat.cast_mul, mul_div_mul_right _ _ one_cast_pos.ne']
    simp [signFactor]
  · rwa [abs_of_nonneg (by positivity)]

theorem isNegative_round (negative : Bool) (num : ℕ) {den : ℕ} (hden : 0 < den) :
    (round negative num den).isNegative = negative := by
  rcases round_cases negative num hden with ⟨-, hsign, -⟩ | ⟨hinfinite, -⟩
  · exact hsign
  · rw [hinfinite]
    rfl

theorem mul_eq_round {x y : Binary64} (hx : x.isFinite = true) (hy : y.isFinite = true) :
    x * y = round (x.isNegative != y.isNegative) (x.magnitude * y.magnitude) one := by
  obtain ⟨s, m, p, h, rfl⟩ := exists_eq_finite hx
  obtain ⟨t, n, q, h', rfl⟩ := exists_eq_finite hy
  rfl

/-- **A product is rounded once.** -/
theorem rounds_mul {x y : Binary64} (hx : x.isFinite = true) (hy : y.isFinite = true)
    (hsmall : |x.value * y.value| ≤ 2 ^ 100) : Rounds (x * y) (x.value * y.value) := by
  rw [mul_eq_round hx hy]
  refine rounds_round _ one_pos ?_ hsmall
  rw [value_eq x, value_eq y, signFactor_xor]
  push_cast
  ring

/-- **A sum is rounded once.** -/
theorem rounds_add {x y : Binary64} (hx : x.isFinite = true) (hy : y.isFinite = true)
    (hsmall : |x.value + y.value| ≤ 2 ^ 100) : Rounds (x + y) (x.value + y.value) := by
  rw [add_eq_roundInt hx hy]
  refine rounds_round _ Nat.one_pos ?_ hsmall
  have hsum : x.value + y.value = ((x.scaled + y.scaled : ℤ) : ℚ) / one := by
    unfold value
    push_cast
    ring
  rw [hsum]
  generalize x.scaled + y.scaled = sum
  rw [Nat.cast_one, one_mul, Nat.cast_natAbs]
  unfold signFactor
  rcases lt_trichotomy sum 0 with hlt | rfl | hgt
  · rw [if_neg hlt.ne, if_pos (decide_eq_true hlt), abs_of_neg hlt]
    push_cast
    ring
  · simp
  · rw [if_neg hgt.ne', if_neg (by simpa using hgt.le), abs_of_pos hgt, one_mul]

@[simp] theorem value_neg (x : Binary64) : (-x).value = -x.value := by
  have hscaled : (-x).scaled = -x.scaled := by
    cases x with
    | finite s m p h =>
      cases s
      · rfl
      · exact (neg_neg _).symm
    | infinite s => cases s <;> rfl
    | nan => rfl
  unfold value
  rw [hscaled, Int.cast_neg, neg_div]

@[simp] theorem isFinite_neg (x : Binary64) : (-x).isFinite = x.isFinite := by
  cases x <;> rfl

/-- **A difference is rounded once.** -/
theorem rounds_sub {x y : Binary64} (hx : x.isFinite = true) (hy : y.isFinite = true)
    (hsmall : |x.value - y.value| ≤ 2 ^ 100) : Rounds (x - y) (x.value - y.value) := by
  rw [sub_eq_add_neg, ← value_neg] at hsmall ⊢
  exact rounds_add hx ((isFinite_neg y).trans hy) hsmall

theorem div_eq_round {x y : Binary64} (hx : x.isFinite = true) (hy : y.isFinite = true)
    (h0 : y.magnitude ≠ 0) :
    x / y = round (x.isNegative != y.isNegative) (x.magnitude * one) y.magnitude := by
  obtain ⟨s, m, p, h, rfl⟩ := exists_eq_finite hx
  obtain ⟨t, n, q, h', rfl⟩ := exists_eq_finite hy
  have hn : n ≠ 0 := by
    rintro rfl
    exact h0 (Nat.zero_mul _)
  exact if_neg hn

theorem magnitude_ne_zero {x : Binary64} (h : x.value ≠ 0) : x.magnitude ≠ 0 := by
  intro h0
  rw [value_eq, h0, Nat.cast_zero, zero_div, mul_zero] at h
  exact h rfl

/-- **A quotient is rounded once.** -/
theorem rounds_div {x y : Binary64} (hx : x.isFinite = true) (hy : y.isFinite = true)
    (hne : y.value ≠ 0) (hsmall : |x.value / y.value| ≤ 2 ^ 100) :
    Rounds (x / y) (x.value / y.value) := by
  have h0 := magnitude_ne_zero hne
  rw [div_eq_round hx hy h0]
  refine rounds_round _ (Nat.pos_of_ne_zero h0) ?_ hsmall
  have hone := one_cast_pos
  have hmagnitude : (y.magnitude : ℚ) ≠ 0 := Nat.cast_ne_zero.mpr h0
  rw [value_eq x, value_eq y, signFactor_xor]
  cases y.isNegative <;> simp only [signFactor] <;> field_simp <;> norm_num

end Academy.Binary64
