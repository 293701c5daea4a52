import Academy.Proofs.Binary64.Value

/-!
# The nearest number

What a number is that is nearest to a rational can be said without rounding
anything: no finite number is nearer, and of two that are equally near it is
the one with the even significand. The number that a rational is rounded to
is of this kind, and there is no other one, the two zeros apart.

The finite numbers lie on the grid that the rational is cut to, or they are
too small to matter. On the grid they are the multiples of its step, so that
the nearest whole number decides; and a number that is not on it lies below
the least rational that is cut to this grid, which is a multiple of the step
itself and so not nearer than the nearest one.
-/

namespace Academy.Binary64

/-- The significand of a finite number. -/
def significand : Binary64 → ℕ
  | .finite _ m _ _ => m
  | _ => 0

/-- **A number that is nearest to a rational.** -/
structure IsNearest (x : Binary64) (q : ℚ) : Prop where
  /-- It is finite. -/
  finite : x.isFinite = true
  /-- No finite number is nearer. -/
  nearest : ∀ y : Binary64, y.isFinite = true → |x.value - q| ≤ |y.value - q|
  /-- Its significand is even if another number is equally near. -/
  even : ∀ y : Binary64, y.isFinite = true → y.value ≠ x.value → |y.value - q| = |x.value - q| →
    Even x.significand

/-! ## On the grid -/

/-- **The nearest whole number is nearest**: another one is not nearer, and if it
is equally near, it is the odd neighbour of an even one. -/
theorem halfEven_nearest (n : ℕ) {d : ℕ} (hd : 0 < d) {k : ℤ} (hk : k ≠ halfEven n d) :
    |(halfEven n d * d : ℤ) - n| ≤ |k * d - n| ∧
      (|k * d - n| = |(halfEven n d * d : ℤ) - n| → Even (halfEven n d) ∧ Odd k) := by
  obtain ⟨hlow, hhigh, heven⟩ := halfEven_spec n hd
  generalize halfEven n d = q at *
  have hlow' : 2 * (n : ℤ) ≤ (2 * q + 1) * d := by exact_mod_cast hlow
  have hhigh' : 2 * q * (d : ℤ) ≤ 2 * n + d := by exact_mod_cast hhigh
  have hhalf : 2 * |(q * d : ℤ) - n| ≤ d := by
    rw [← abs_two, ← abs_mul, abs_le]
    constructor <;> linarith
  -- another multiple of `d` is a whole step away, so it is half a step off at least
  have hstep : |(k * d : ℤ) - q * d| = |k - q| * d := by
    rw [← sub_mul, abs_mul, Nat.abs_cast]
  have hfar : 1 ≤ |k - q| := Int.one_le_abs (sub_ne_zero.mpr hk)
  have htriangle : |(k * d : ℤ) - q * d| ≤ |k * d - n| + |(q * d : ℤ) - n| := by
    rw [abs_sub_comm (q * d : ℤ) n]
    exact abs_sub_le _ _ _
  have hle : (d : ℤ) ≤ |k - q| * d := le_mul_of_one_le_left (Int.natCast_nonneg d) hfar
  refine ⟨by linarith, fun htie => ?_⟩
  have heq : 2 * |(q * d : ℤ) - n| = d := by linarith
  have hone : |k - q| = 1 := by
    refine le_antisymm (le_of_mul_le_mul_right ?_ (Int.natCast_pos.mpr hd)) hfar
    linarith
  have heven' : q % 2 = 0 := by
    refine heven ?_
    rcases abs_choice ((q * d : ℤ) - n) with h | h
    · right
      have h' : 2 * (q : ℤ) * d = 2 * n + d := by linarith
      exact_mod_cast h'
    · left
      have h' : 2 * (n : ℤ) = (2 * q + 1) * d := by linarith
      exact_mod_cast h'
  refine ⟨Nat.even_iff.mpr heven', Int.odd_iff.mpr ?_⟩
  rcases abs_choice (k - q) with h | h <;> omega

/-- What lies below a multiple that the quotient reaches is farther away. -/
theorem halfEven_nearer_of_lt (n : ℕ) {d : ℕ} (hd : 0 < d) {k i : ℤ} (hk : k * d ≤ n)
    (hi : i < k * d) : |(halfEven n d * d : ℤ) - n| < |i - n| := by
  have hle : |(halfEven n d * d : ℤ) - n| ≤ |k * d - n| := by
    by_cases hne : k = halfEven n d
    · rw [hne]
    · exact (halfEven_nearest n hd hne).1
  rw [abs_sub_comm (k * d : ℤ), abs_of_nonneg (sub_nonneg.mpr hk)] at hle
  rw [abs_sub_comm i, abs_of_pos (sub_pos.mpr (hi.trans_le hk))]
  linarith

/-- **A magnitude lies on a grid or below its multiples of 53 digits.** It is an odd
multiple of the step only if the significand is odd. -/
theorem magnitude_on_grid (y : Binary64) (p : ℕ) :
    (∃ k, y.magnitude = k * 2 ^ p ∧ (Odd k → Odd y.significand)) ∨
      p ≠ 0 ∧ y.magnitude < 2 ^ 52 * 2 ^ p := by
  cases y with
  | finite s m e h =>
    rcases Nat.lt_or_ge e p with hlt | hge
    · refine .inr ⟨by omega, ?_⟩
      calc m * 2 ^ e < 2 ^ 53 * 2 ^ e := Nat.mul_lt_mul_of_pos_right h.1 (Nat.two_pow_pos e)
        _ = 2 ^ 52 * 2 ^ (e + 1) := by ring
        _ ≤ 2 ^ 52 * 2 ^ p := Nat.mul_le_mul_left _ (Nat.pow_le_pow_right (by decide) hlt)
    · obtain ⟨j, rfl⟩ := Nat.exists_eq_add_of_le hge
      refine .inl ⟨m * 2 ^ j, ?_, fun hodd => (Nat.odd_mul.mp hodd).1⟩
      show m * 2 ^ (p + j) = _
      ring
  | infinite s => exact .inl ⟨0, (Nat.zero_mul _).symm, fun h => (Nat.not_odd_zero h).elim⟩
  | nan => exact .inl ⟨0, (Nat.zero_mul _).symm, fun h => (Nat.not_odd_zero h).elim⟩

theorem scaled_eq_or (y : Binary64) : y.scaled = y.magnitude ∨ y.scaled = -y.magnitude := by
  unfold scaled
  split
  · exact .inr rfl
  · exact .inl rfl

theorem scaled_on_grid (y : Binary64) (p : ℕ) :
    (∃ k : ℤ, y.scaled = k * 2 ^ p ∧ (Odd k → Odd y.significand)) ∨
      p ≠ 0 ∧ y.scaled < 2 ^ 52 * 2 ^ p := by
  rcases magnitude_on_grid y p with ⟨k, hk, hodd⟩ | ⟨hp, hlt⟩
  · left
    rcases scaled_eq_or y with h | h
    · exact ⟨k, by rw [h, hk]; push_cast; rfl, fun h => hodd (Int.odd_coe_nat k |>.mp h)⟩
    · refine ⟨-k, by rw [h, hk]; push_cast; ring, fun h => hodd ?_⟩
      exact (Int.odd_coe_nat k).mp (odd_neg.mp h)
  · refine .inr ⟨hp, ?_⟩
    have hlt' : (y.magnitude : ℤ) < 2 ^ 52 * 2 ^ p := by exact_mod_cast hlt
    have hnonneg : (0 : ℤ) ≤ y.magnitude := Int.natCast_nonneg _
    rcases scaled_eq_or y with h | h <;> rw [h] <;> linarith

/-- **The rounded units are nearest.** -/
theorem roundedUnits_nearest (num : ℕ) {den : ℕ} (hden : 0 < den) {y : Binary64}
    (hy : y.scaled ≠ roundedUnits num den) :
    |(roundedUnits num den * den : ℤ) - num| ≤ |y.scaled * den - num| ∧
      (|y.scaled * den - num| = |(roundedUnits num den * den : ℤ) - num| →
        Even (halfEven num (den * 2 ^ roundingPower num den)) ∧ Odd y.significand) := by
  have hpow := @pow_roundingPower_le num den
  have hunits : roundedUnits num den
      = halfEven num (den * 2 ^ roundingPower num den) * 2 ^ roundingPower num den := rfl
  rw [hunits] at hy ⊢
  generalize roundingPower num den = p at *
  have hstep : 0 < den * 2 ^ p := Nat.mul_pos hden (Nat.two_pow_pos p)
  have hcast : ∀ k : ℤ, k * 2 ^ p * den = k * (den * 2 ^ p : ℕ) := by
    intro k
    push_cast
    ring
  push_cast at hy ⊢
  rw [hcast]
  rcases scaled_on_grid y p with ⟨k, hk, hodd⟩ | ⟨hp, hlt⟩
  · rw [hk] at hy ⊢
    rw [hcast]
    have hne : k ≠ halfEven num (den * 2 ^ p) := fun h => hy (by rw [h])
    obtain ⟨hle, htie⟩ := halfEven_nearest num hstep hne
    exact ⟨hle, fun h => (htie h).imp id hodd⟩
  · -- the least rational that is cut to this grid is a multiple of the step
    have hleast : (2 ^ 52 : ℤ) * (den * 2 ^ p : ℕ) ≤ num := by
      have h := (Nat.le_div_iff_mul_le hden).mp (hpow hp)
      rw [pow_add, Nat.mul_assoc, Nat.mul_comm (2 ^ p)] at h
      exact_mod_cast h
    have hless : y.scaled * den < 2 ^ 52 * (den * 2 ^ p : ℕ) := by
      rw [← hcast]
      exact mul_lt_mul_of_pos_right hlt (Int.natCast_pos.mpr hden)
    have hfarther := halfEven_nearer_of_lt num hstep hleast hless
    exact ⟨hfarther.le, fun h => absurd h hfarther.ne'⟩

/-- A number that is an even multiple of at most 53 digits has an even significand. -/
theorem even_significand {x : Binary64} {m p : ℕ} (hx : x.magnitude = m * 2 ^ p)
    (hm : m ≤ 2 ^ 53) (heven : Even m) : Even x.significand := by
  cases x with
  | finite s n e h =>
    by_contra hodd
    rw [Nat.not_even_iff_odd] at hodd
    change n * 2 ^ e = m * 2 ^ p at hx
    -- an odd significand has the greater power, and leaves one digit for the other at least
    have hlt : p < e := by
      by_contra! hle
      obtain ⟨j, rfl⟩ := Nat.exists_eq_add_of_le hle
      rw [pow_add, Nat.mul_left_comm, Nat.mul_comm n] at hx
      have hn : n = m * 2 ^ j := Nat.eq_of_mul_eq_mul_left (Nat.two_pow_pos e) hx
      exact Nat.not_even_iff_odd.mpr hodd (hn ▸ heven.mul_right _)
    obtain ⟨j, rfl⟩ := Nat.exists_eq_add_of_lt hlt
    have hm' : m = n * 2 ^ (j + 1) := by
      refine Nat.eq_of_mul_eq_mul_right (Nat.two_pow_pos p) (hx.symm.trans ?_)
      ring
    have hlow : 2 ^ 52 ≤ n := h.2.2.resolve_right (by omega)
    have hn : n = 2 ^ 52 := by
      have : n * 2 ≤ m := hm' ▸ Nat.mul_le_mul_left n (Nat.le_self_pow (by omega) 2)
      omega
    have hleast : Even (2 ^ 52) := by decide
    exact Nat.not_even_iff_odd.mpr hodd (hn ▸ hleast)
  | infinite s => exact Even.zero
  | nan => exact Even.zero

/-! ## Rounding is to the nearest number -/

theorem abs_value_sub (y : Binary64) (num : ℕ) {den : ℕ} (hden : 0 < den) :
    |y.value - num / (den * one)| = |y.scaled * den - num| / (den * one) := by
  have hone := one_cast_pos
  have hden' : (0 : ℚ) < den := Nat.cast_pos.mpr hden
  have hquotient : y.value - num / (den * one) = (y.scaled * den - num : ℤ) / (den * one) := by
    unfold value
    push_cast
    field_simp
  rw [hquotient, abs_div, abs_of_pos (mul_pos hden' hone), Int.cast_abs]

@[simp] theorem significand_neg (x : Binary64) : (-x).significand = x.significand := by
  cases x <;> rfl

/-- A rational that is not negative is rounded to the number that is nearest. -/
theorem Rounds.nearer_of_nonneg {x y : Binary64} {q : ℚ} (hx : Rounds x q) (hq : 0 ≤ q)
    (hy : y.value ≠ x.value) :
    |x.value - q| ≤ |y.value - q| ∧
      (|y.value - q| = |x.value - q| → Even x.significand ∧ Odd y.significand) := by
  obtain ⟨num, den, hden, rfl⟩ := exists_units hq
  have hone := one_cast_pos
  have hscaled : x.scaled = roundedUnits num den := by
    have h := hx.2
    rw [rounded_units num hden, value, div_left_inj' hone.ne'] at h
    exact_mod_cast h
  have hne : y.scaled ≠ roundedUnits num den := by
    intro h
    exact hy (by rw [value, value, h, hscaled])
  obtain ⟨hle, htie⟩ := roundedUnits_nearest num hden hne
  rw [← hscaled] at hle htie
  have hpos : (0 : ℚ) < den * one := mul_pos (Nat.cast_pos.mpr hden) hone
  rw [abs_value_sub x num hden, abs_value_sub y num hden, div_le_div_iff_of_pos_right hpos,
    div_left_inj' hpos.ne']
  refine ⟨by exact_mod_cast hle, fun h => ?_⟩
  obtain ⟨heven, hodd⟩ := htie (by exact_mod_cast h)
  refine ⟨even_significand (p := roundingPower num den) ?_ (halfEven_le_pow num hden) heven, hodd⟩
  have hmagnitude : (x.magnitude : ℤ) = roundedUnits num den := by
    rcases scaled_eq_or x with h | h <;> omega
  exact_mod_cast hmagnitude

/-- **A rounded number is nearer than any other one**, or equally near, and then it
is the even one of the two. -/
theorem Rounds.nearer {x y : Binary64} {q : ℚ} (hx : Rounds x q) (hy : y.value ≠ x.value) :
    |x.value - q| ≤ |y.value - q| ∧
      (|y.value - q| = |x.value - q| → Even x.significand ∧ Odd y.significand) := by
  rcases le_or_gt 0 q with hq | hq
  · exact hx.nearer_of_nonneg hq hy
  · -- opposite numbers are as far from opposite rationals
    have hneg : ∀ z : Binary64, |(-z).value - -q| = |z.value - q| := by
      intro z
      rw [value_neg, ← abs_neg]
      congr 1
      ring
    have hx' : Rounds (-x) (-q) := ⟨by simpa using hx.1, by simpa using hx.2⟩
    have hy' : (-y).value ≠ (-x).value := by
      rw [value_neg, value_neg]
      exact fun h => hy (neg_injective h)
    have h := hx'.nearer_of_nonneg (neg_nonneg.mpr hq.le) hy'
    rwa [hneg, hneg, significand_neg, significand_neg] at h

/-- **What a rational is rounded to is nearest to it.** -/
theorem Rounds.isNearest {x : Binary64} {q : ℚ} (h : Rounds x q) : IsNearest x q where
  finite := h.1
  nearest y _ := by
    by_cases hne : y.value = x.value
    · rw [hne]
    · exact (h.nearer hne).1
  even _ _ hne htie := ((h.nearer hne).2 htie).1

/-- There is such a number, unless the rational is far too large. -/
theorem exists_rounds {q : ℚ} (hq : |q| ≤ 2 ^ 100) : ∃ x, Rounds x q := by
  obtain ⟨num, den, hden, habs⟩ := exists_units (abs_nonneg q)
  have hsign : q = signFactor (decide (q < 0)) * |q| := by
    rcases lt_or_ge q 0 with hlt | hge
    · simp [signFactor, hlt, abs_of_neg]
    · simp [signFactor, not_lt.mpr hge, abs_of_nonneg hge]
  exact ⟨_, rounds_round (decide (q < 0)) hden (habs ▸ hsign) hq⟩

/-- **What is nearest to a rational has the value that the rational is rounded to**: of
two others that are equally near only one is even. -/
theorem IsNearest.rounds {x : Binary64} {q : ℚ} (h : IsNearest x q) (hq : |q| ≤ 2 ^ 100) :
    Rounds x q := by
  obtain ⟨z, hz⟩ := exists_rounds hq
  refine ⟨h.finite, hz.2 ▸ ?_⟩
  by_contra hne
  have htie : |x.value - q| = |z.value - q| :=
    le_antisymm (h.nearest z hz.1) (hz.isNearest.nearest x h.finite)
  have heven := h.even z hz.1 (Ne.symm hne) htie.symm
  exact Nat.not_even_iff_odd.mpr ((hz.nearer hne).2 htie).2 heven

end Academy.Binary64
