import Academy.Binary64.Basic
import Academy.Proofs.Binary64.Order

/-!
# Sums of numbers that are not below zero

A weight is a number that zero is not above, and that lets three things in
that a number without a sign is not: the negative zero, and the infinite
numbers, among them one that a sum can come to. The negative zero has the
value of zero and nothing else follows from its sign, so the numbers are
compared by their values in units here (`scaled`), and not by their
magnitudes.

What is added to such a number never takes away from it, however the sum
is rounded: the number itself needs no rounding, and rounding keeps the
order. For the same reason a zero leaves the value as it is. And a sum
that has become infinite stays so, so that a finite total has finite
terms.
-/

namespace Academy.Binary64

/-! ## The order of finite numbers -/

theorem le_iff_scaled {x y : Binary64} (hx : x.isFinite = true) (hy : y.isFinite = true) :
    x.le y = true ↔ x.scaled ≤ y.scaled := by
  cases x with
  | finite s m p h =>
    cases y with
    | finite t n q h' => exact decide_eq_true_iff
    | infinite t => exact nomatch hy
    | nan => exact nomatch hy
  | infinite s => exact nomatch hx
  | nan => exact nomatch hx

theorem lt_iff_scaled {x y : Binary64} (hx : x.isFinite = true) (hy : y.isFinite = true) :
    x.lt y = true ↔ x.scaled < y.scaled := by
  unfold lt
  rw [Bool.and_eq_true, Bool.not_eq_true', ← Bool.not_eq_true, le_iff_scaled hx hy,
    le_iff_scaled hy hx]
  omega

theorem equal_iff_scaled {x y : Binary64} (hx : x.isFinite = true) (hy : y.isFinite = true) :
    x.equal y = true ↔ x.scaled = y.scaled := by
  unfold equal
  rw [Bool.and_eq_true, le_iff_scaled hx hy, le_iff_scaled hy hx]
  omega

@[simp] theorem isFinite_zero : (0 : Binary64).isFinite = true :=
  unsigned_zero.1

@[simp] theorem scaled_zero : (0 : Binary64).scaled = 0 := by
  simp [unsigned_zero.scaled_eq]

theorem zero_le_iff {x : Binary64} (hx : x.isFinite = true) :
    (0 : Binary64).le x = true ↔ 0 ≤ x.scaled := by
  simp [le_iff_scaled, hx]

theorem zero_lt_iff {x : Binary64} (hx : x.isFinite = true) :
    (0 : Binary64).lt x = true ↔ 0 < x.scaled := by
  simp [lt_iff_scaled, hx]

theorem lt_zero_iff {x : Binary64} (hx : x.isFinite = true) : x.lt 0 = true ↔ x.scaled < 0 := by
  simp [lt_iff_scaled, hx]

theorem equal_zero_iff {x : Binary64} (hx : x.isFinite = true) :
    x.equal 0 = true ↔ x.scaled = 0 := by
  simp [equal_iff_scaled, hx]

/-- What is equal to zero is finite. -/
theorem isFinite_of_equal_zero {x : Binary64} (h : x.equal 0 = true) : x.isFinite = true := by
  cases x with
  | finite s m p hc => rfl
  | infinite s => cases s <;> exact absurd h (by decide +kernel)
  | nan => exact absurd h (by decide +kernel)

/-- Zero is not above a number, if and only if the number is one and is not below
zero. -/
theorem zero_le_eq_false_iff {x : Binary64} :
    (0 : Binary64).le x = false ↔ x = nan ∨ x.lt 0 = true := by
  rcases hx : x.isFinite with _ | _
  · cases x with
    | finite s m p h => exact nomatch hx
    | infinite s => cases s <;> decide +kernel
    | nan => decide +kernel
  · have hnan : x ≠ nan := by
      rintro rfl
      exact nomatch hx
    rw [or_iff_right hnan, ← Bool.not_eq_true, zero_le_iff hx, lt_zero_iff hx]
    omega

/-! ## Values that are rounded already -/

/-- **A number needs no rounding.** -/
@[simp]
theorem roundedUnits_magnitude (x : Binary64) : roundedUnits x.magnitude 1 = x.magnitude := by
  cases x with
  | finite s m p h => exact roundedUnits_of_eq Nat.one_pos h.1 (Nat.mul_one _).symm
  | infinite s => exact roundedUnits_of_eq (k := 0) Nat.one_pos (Nat.two_pow_pos 53) rfl
  | nan => exact roundedUnits_of_eq (k := 0) Nat.one_pos (Nat.two_pow_pos 53) rfl

/-- Adding nothing to a number without a sign leaves its value as it is. -/
theorem Unsigned.add_zero {x : Binary64} (hx : x.Unsigned) :
    (x + 0).isFinite = true ∧ (x + 0).scaled = x.scaled := by
  have hadd : x + 0 = round false x.magnitude 1 := by
    simp [hx.add_eq unsigned_zero]
  have hlimit : x.magnitude < unitLimit := by
    obtain ⟨k, hk, hlimit⟩ := unitLimit_eq_pow
    obtain ⟨m, p, h, rfl⟩ := hx.eq_finite
    rw [hlimit]
    calc m * 2 ^ p < 2 ^ 53 * 2 ^ p := Nat.mul_lt_mul_of_pos_right h.1 (Nat.two_pow_pos p)
      _ = 2 ^ (53 + p) := (pow_add 2 53 p).symm
      _ ≤ 2 ^ (52 + k) := Nat.pow_le_pow_right (by decide) (by have := h.2.1; omega)
      _ = 2 ^ 52 * 2 ^ k := pow_add 2 52 k
  rcases round_cases false x.magnitude Nat.one_pos with ⟨hfinite, hsign, hunits, -⟩ | ⟨-, hge⟩
  · have hsum : (round false x.magnitude 1).Unsigned := ⟨hfinite, hsign⟩
    rw [hadd, hsum.scaled_eq, hx.scaled_eq, hunits, roundedUnits_magnitude]
    exact ⟨hfinite, rfl⟩
  · rw [roundedUnits_magnitude] at hge
    omega

/-! ## Sums -/

/-- **A finite number that is not below zero.** -/
def Nonnegative (x : Binary64) : Prop :=
  x.isFinite = true ∧ 0 ≤ x.scaled

theorem Nonnegative.magnitude_eq {x : Binary64} (hx : x.Nonnegative) :
    (x.magnitude : Int) = x.scaled := by
  have h := hx.2
  unfold scaled at h ⊢
  split at h
  · next hs =>
    rw [if_pos hs]
    omega
  · next hs => rw [if_neg hs]

/-- What is not below zero and not zero either has no sign. -/
theorem Nonnegative.unsigned {x : Binary64} (hx : x.Nonnegative) (h0 : x.equal 0 = false) :
    x.Unsigned ∧ 0 < x.magnitude := by
  rw [← Bool.not_eq_true, equal_zero_iff hx.1, ← hx.magnitude_eq] at h0
  refine ⟨⟨hx.1, ?_⟩, by omega⟩
  by_contra hsign
  have hscaled := hx.magnitude_eq
  unfold scaled at hscaled
  rw [if_pos (Bool.eq_true_of_not_eq_false hsign)] at hscaled
  omega

theorem add_eq_roundInt {x y : Binary64} (hx : x.isFinite = true) (hy : y.isFinite = true) :
    x + y = roundInt (x.isNegative && y.isNegative) (x.scaled + y.scaled) 1 := by
  cases x with
  | finite s m p h =>
    cases y with
    | finite t n q h' => rfl
    | infinite t => exact nomatch hy
    | nan => exact nomatch hy
  | infinite s => exact nomatch hx
  | nan => exact nomatch hx

/-- **A sum of two numbers that are not below zero** is the rounded sum of their
units, or it has become infinite. -/
theorem Nonnegative.add_cases {x y : Binary64} (hx : x.Nonnegative) (hy : y.Nonnegative) :
    ((x + y).Nonnegative ∧ (x + y).scaled = roundedUnits (x.magnitude + y.magnitude) 1) ∨
      x + y = infinite false := by
  have hunits : (x.scaled + y.scaled).natAbs = x.magnitude + y.magnitude := by
    rw [← hx.magnitude_eq, ← hy.magnitude_eq]
    exact Int.natAbs_natCast (x.magnitude + y.magnitude)
  rw [add_eq_roundInt hx.1 hy.1]
  unfold roundInt
  rw [hunits]
  by_cases h0 : x.magnitude + y.magnitude = 0
  · -- whichever zero it is, its value is zero
    left
    have h : ∀ s, (round s 0 1).Nonnegative ∧ (round s 0 1).scaled = 0 := by
      intro s
      cases s <;> exact ⟨⟨by decide +kernel, by decide +kernel⟩, by decide +kernel⟩
    rw [h0, show roundedUnits 0 1 = 0 from by decide +kernel]
    exact h _
  · have hsign : (if x.scaled + y.scaled = 0 then (x.isNegative && y.isNegative)
        else decide (x.scaled + y.scaled < 0)) = false := by
      have := hx.magnitude_eq
      have := hy.magnitude_eq
      rw [if_neg (by omega)]
      exact decide_eq_false (by omega)
    rw [hsign]
    rcases round_cases false (x.magnitude + y.magnitude) Nat.one_pos with
      ⟨hfinite, hsign, hmagnitude, -⟩ | ⟨hinfinite, -⟩
    · left
      have hunsigned : (round false (x.magnitude + y.magnitude) 1).Unsigned := ⟨hfinite, hsign⟩
      rw [Nonnegative, hunsigned.scaled_eq, hmagnitude]
      exact ⟨⟨hfinite, Int.natCast_nonneg _⟩, rfl⟩
    · exact .inr hinfinite

/-- **A sum is not below its first term**, however it is rounded. -/
theorem Nonnegative.le_add {x y : Binary64} (hx : x.Nonnegative) (hy : y.Nonnegative)
    (hfinite : (x + y).isFinite = true) :
    (x + y).Nonnegative ∧ x.scaled ≤ (x + y).scaled := by
  rcases hx.add_cases hy with ⟨hsum, hunits⟩ | hinfinite
  · refine ⟨hsum, ?_⟩
    rw [hunits, ← hx.magnitude_eq, Int.ofNat_le, ← roundedUnits_magnitude x]
    refine roundedUnits_mono Nat.one_pos Nat.one_pos ?_
    rw [roundedUnits_magnitude]
    omega
  · rw [hinfinite] at hfinite
    exact nomatch hfinite

/-- **What makes a sum greater is above zero.** -/
theorem Nonnegative.pos_of_lt_add {x y : Binary64} (hx : x.Nonnegative) (hy : y.Nonnegative)
    (hfinite : (x + y).isFinite = true) (hlt : x.scaled < (x + y).scaled) : 0 < y.scaled := by
  rcases hx.add_cases hy with ⟨-, hunits⟩ | hinfinite
  · refine lt_of_le_of_ne hy.2 fun h0 => ?_
    have hzero : y.magnitude = 0 := by
      have := hy.magnitude_eq
      omega
    rw [hunits, hzero, Nat.add_zero, roundedUnits_magnitude, hx.magnitude_eq] at hlt
    exact lt_irrefl _ hlt
  · rw [hinfinite] at hfinite
    exact nomatch hfinite

/-- **What zero is not above** is finite and not below zero, or it is infinite. -/
theorem nonnegative_or_infinite {x : Binary64} (h : (0 : Binary64).le x = true) :
    x.Nonnegative ∨ x = infinite false := by
  rcases hx : x.isFinite with _ | _
  · cases x with
    | finite s m p hc => exact nomatch hx
    | infinite s =>
      cases s with
      | false => exact .inr rfl
      | true => exact absurd h (by decide +kernel)
    | nan => exact absurd h (by decide +kernel)
  · exact .inl ⟨hx, (zero_le_iff hx).mp h⟩

/-- An infinite sum stays infinite. -/
theorem infinite_add {x : Binary64} (h : (0 : Binary64).le x = true) :
    infinite false + x = infinite false := by
  rcases nonnegative_or_infinite h with hx | rfl
  · cases x with
    | finite s m p hc => rfl
    | infinite s => exact nomatch hx.1
    | nan => exact nomatch hx.1
  · rfl

/-- **An infinite term makes an infinite sum.** -/
theorem Nonnegative.add_infinite {x : Binary64} (hx : x.Nonnegative) :
    x + infinite false = infinite false := by
  cases x with
  | finite s m p hc => rfl
  | infinite s => exact nomatch hx.1
  | nan => exact nomatch hx.1

/-! ## Steps towards zero -/

/-- **A step towards zero** leaves a number without a sign, and takes from it what
is above zero. -/
theorem Unsigned.towardsZero {x : Binary64} (hx : x.Unsigned) :
    x.towardsZero.Unsigned ∧ x.towardsZero.magnitude ≤ x.magnitude - 1 := by
  obtain ⟨m, p, h, rfl⟩ := hx.eq_finite
  unfold Binary64.towardsZero
  dsimp only
  split
  · exact ⟨⟨rfl, rfl⟩, by simp [magnitude, zero]⟩
  · next hm =>
    have hp : 0 < 2 ^ p := Nat.two_pow_pos p
    split
    · -- the significand is the least of its power, and the one before it is the greatest of the
      -- power before
      next hleast =>
      have hcanonical : Canonical (Nat.pow 2 53 - 1) (p - 1) :=
        ⟨by decide, by have := h.2.1; omega, .inl (by decide)⟩
      unfold pack
      rw [dif_pos hcanonical]
      refine ⟨⟨rfl, rfl⟩, Nat.le_sub_one_of_lt ?_⟩
      show (2 ^ 53 - 1) * 2 ^ (p - 1) < m * 2 ^ p
      obtain ⟨q, rfl⟩ : ∃ q, p = q + 1 := ⟨p - 1, by omega⟩
      rw [hleast.1, Nat.add_sub_cancel, pow_succ]
      have hq : 0 < 2 ^ q := Nat.two_pow_pos q
      show _ < 2 ^ 52 * (2 ^ q * 2)
      omega
    · next hleast =>
      have hcanonical : Canonical (m - 1) p := by
        refine ⟨Nat.lt_of_le_of_lt (Nat.sub_le _ _) h.1, h.2.1, ?_⟩
        rcases h.2.2 with hge | h0
        · by_cases h0 : p = 0
          · exact .inr h0
          · exact .inl (by have : m ≠ Nat.pow 2 52 := fun he => hleast ⟨he, h0⟩; omega)
        · exact .inr h0
      unfold pack
      rw [dif_pos hcanonical]
      refine ⟨⟨rfl, rfl⟩, Nat.le_sub_one_of_lt ?_⟩
      exact Nat.mul_lt_mul_of_pos_right (by omega) hp

end Academy.Binary64
