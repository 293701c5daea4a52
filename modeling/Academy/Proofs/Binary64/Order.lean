import Academy.Binary64.Basic
import Academy.Proofs.Binary64.Rounding

/-!
# Arithmetic keeps bounds

What is drawn from a range goes through a product, a sum, a product, a
rounding to whole numbers and a quotient, each of them rounded. None of
these steps leaves the interval that the same step makes of the bounds, so
a value that begins between two numbers ends between two numbers, and
those are closed terms that can be evaluated.

The numbers here are finite and without a sign (`Unsigned`), which is what
prices, grades and ratings are. On them an operation is one rounding of a
quotient of magnitudes, and the order is the order of magnitudes. An
operation can leave these numbers at one place only, above: it is enough
that the upper bound does not.
-/

namespace Academy.Binary64

theorem one_pos : 0 < one := by decide +kernel

/-! ## Numbers without a sign -/

/-- **A finite number without a sign.** -/
def Unsigned (x : Binary64) : Prop :=
  x.isFinite = true ∧ x.isNegative = false

instance (x : Binary64) : Decidable x.Unsigned :=
  inferInstanceAs (Decidable (_ ∧ _))

theorem Unsigned.eq_finite {x : Binary64} (hx : x.Unsigned) :
    ∃ m p h, x = finite false m p h := by
  obtain ⟨hfinite, hnegative⟩ := hx
  cases x with
  | finite s m p h =>
    obtain rfl : s = false := hnegative
    exact ⟨m, p, h, rfl⟩
  | infinite s => exact nomatch hfinite
  | nan => exact nomatch hfinite

theorem Unsigned.scaled_eq {x : Binary64} (hx : x.Unsigned) : x.scaled = x.magnitude := by
  unfold scaled
  rw [hx.2]
  rfl

theorem Unsigned.le_iff {x y : Binary64} (hx : x.Unsigned) (hy : y.Unsigned) :
    x.le y = true ↔ x.magnitude ≤ y.magnitude := by
  have hsx := hx.scaled_eq
  have hsy := hy.scaled_eq
  obtain ⟨m, p, h, rfl⟩ := hx.eq_finite
  obtain ⟨n, q, h', rfl⟩ := hy.eq_finite
  show decide _ = true ↔ _
  rw [decide_eq_true_iff, hsx, hsy]
  exact Int.ofNat_le

@[simp] theorem unsigned_zero : (0 : Binary64).Unsigned := by decide +kernel

@[simp] theorem magnitude_zero : (0 : Binary64).magnitude = 0 := by decide +kernel

/-- A number without a sign is not less than nothing. -/
theorem Unsigned.lt_zero {x : Binary64} (hx : x.Unsigned) : x.lt 0 = false := by
  have h : (0 : Binary64).le x = true := by
    simp [unsigned_zero.le_iff hx]
  unfold lt
  rw [h]
  exact Bool.and_false _

/-- A number without a sign that is not nothing is above nothing. -/
theorem Unsigned.le_zero {x : Binary64} (hx : x.Unsigned) (h0 : 0 < x.magnitude) :
    x.le 0 = false := by
  rw [← Bool.not_eq_true, hx.le_iff unsigned_zero]
  simpa using h0.ne'

/-! ## What rounding gives -/

/-- How many units are too many for a finite number. -/
def unitLimit : Nat := 2 ^ 52 * 2 ^ 2046

theorem unitLimit_eq_pow : ∃ k, k = 2046 ∧ unitLimit = 2 ^ 52 * 2 ^ k := ⟨2046, rfl, rfl⟩

/-- A significand of 53 digits, or the least one of 54, is packed without
loss, unless the number is too large. -/
theorem pack_cases (negative : Bool) {m p : Nat} (hm : m ≤ 2 ^ 53) (hp : p ≠ 0 → 2 ^ 52 ≤ m) :
    ((pack negative m p).isFinite = true ∧ (pack negative m p).isNegative = negative ∧
      (pack negative m p).magnitude = m * 2 ^ p ∧ m * 2 ^ p < unitLimit) ∨
    (pack negative m p = infinite negative ∧ unitLimit ≤ m * 2 ^ p) := by
  obtain ⟨k, hk, hlimit⟩ := unitLimit_eq_pow
  unfold pack
  split
  · next h =>
    refine .inl ⟨rfl, rfl, rfl, ?_⟩
    rw [hlimit]
    calc m * 2 ^ p < 2 ^ 53 * 2 ^ p := Nat.mul_lt_mul_of_pos_right h.1 (Nat.two_pow_pos p)
      _ = 2 ^ (53 + p) := (pow_add 2 53 p).symm
      _ ≤ 2 ^ (52 + k) := Nat.pow_le_pow_right (by decide) (by have := h.2.1; omega)
      _ = 2 ^ 52 * 2 ^ k := pow_add 2 52 k
  · next h =>
    -- where the power is not to blame, the significand has grown to 54 digits
    have hgrown : p ≤ 2045 → m = 2 ^ 53 := by
      intro hpower
      by_contra hne
      refine h ⟨Nat.lt_of_le_of_ne hm hne, hpower, ?_⟩
      by_cases h0 : p = 0
      · exact .inr h0
      · exact .inl (hp h0)
    split
    · next h' =>
      have hm' : m = 2 ^ 53 := hgrown (Nat.le_of_succ_le h'.2.1)
      subst hm'
      have e : 2 ^ 53 / 2 * 2 ^ (p + 1) = 2 ^ 53 * 2 ^ p := by
        rw [pow_succ]
        ring
      refine .inl ⟨rfl, rfl, e, ?_⟩
      rw [hlimit]
      calc 2 ^ 53 * 2 ^ p = 2 ^ (53 + p) := (pow_add 2 53 p).symm
        _ < 2 ^ (52 + k) :=
          Nat.pow_lt_pow_right (by decide) (by have := h'.2.1; omega)
        _ = 2 ^ 52 * 2 ^ k := pow_add 2 52 k
    · next h' =>
      refine .inr ⟨rfl, ?_⟩
      rw [hlimit]
      rcases Nat.lt_or_ge p k with hlt | hge
      · have hm' : m = 2 ^ 53 := hgrown (by omega)
        -- the power is the greatest one, or the half would have been packed
        have hp' : k = p + 1 := by
          by_contra hne
          refine h' ⟨?_, by omega, .inl ?_⟩ <;> rw [hm'] <;> decide
        rw [hm', hp', ← pow_add, ← pow_add]
        exact Nat.pow_le_pow_right (by decide) (by omega)
      · exact Nat.mul_le_mul (hp (by omega)) (Nat.pow_le_pow_right (by decide) hge)

/-- **A rounded quotient**: finite with the rounded units, or infinite where
these are too many. -/
theorem round_cases (negative : Bool) (num : Nat) {den : Nat} (hden : 0 < den) :
    ((round negative num den).isFinite = true ∧ (round negative num den).isNegative = negative ∧
      (round negative num den).magnitude = roundedUnits num den ∧
      roundedUnits num den < unitLimit) ∨
    (round negative num den = infinite negative ∧ unitLimit ≤ roundedUnits num den) := by
  rw [round_eq_pack]
  exact pack_cases negative (halfEven_le_pow num hden) (pow_le_halfEven hden)

theorem Unsigned.of_round {num den : Nat} (hden : 0 < den)
    (h : (round false num den).isFinite = true) :
    (round false num den).Unsigned ∧
      (round false num den).magnitude = roundedUnits num den := by
  rcases round_cases false num hden with ⟨hfinite, hsign, hunits, -⟩ | ⟨hinfinite, -⟩
  · exact ⟨⟨hfinite, hsign⟩, hunits⟩
  · rw [hinfinite] at h
    exact nomatch h

/-! ## Bounds -/

/-- **A number between two others**, all of them without a sign. -/
structure Between (low high x : Binary64) : Prop where
  /-- The lower bound has no sign. -/
  low_unsigned : low.Unsigned
  /-- The upper bound has no sign. -/
  high_unsigned : high.Unsigned
  /-- The number has no sign. -/
  unsigned : x.Unsigned
  /-- The number is not below the lower bound. -/
  low_le : low.magnitude ≤ x.magnitude
  /-- The number is not above the upper bound. -/
  le_high : x.magnitude ≤ high.magnitude

/-- **Rounding keeps bounds**, as long as the upper one stays finite. -/
theorem between_round {n₁ d₁ n d n₂ d₂ : Nat} (hd₁ : 0 < d₁) (hd : 0 < d) (hd₂ : 0 < d₂)
    (hlow : n₁ * d ≤ n * d₁) (hhigh : n * d₂ ≤ n₂ * d)
    (hfinite : (round false n₂ d₂).isFinite = true) :
    Between (round false n₁ d₁) (round false n₂ d₂) (round false n d) := by
  have hlow' := roundedUnits_mono hd₁ hd hlow
  have hhigh' := roundedUnits_mono hd hd₂ hhigh
  obtain ⟨hunsigned₂, hunits₂⟩ := Unsigned.of_round hd₂ hfinite
  have hlimit : roundedUnits n₂ d₂ < unitLimit := by
    rcases round_cases false n₂ hd₂ with ⟨-, -, -, h⟩ | ⟨h, -⟩
    · exact h
    · rw [h] at hfinite
      exact nomatch hfinite
  -- what is not above the upper bound stays finite too
  have below : ∀ num den : Nat, 0 < den → roundedUnits num den < unitLimit →
      (round false num den).isFinite = true := by
    intro num den hden h
    rcases round_cases false num hden with ⟨hf, -⟩ | ⟨-, hge⟩
    · exact hf
    · omega
  obtain ⟨hunsigned, hunits⟩ := Unsigned.of_round hd (below n d hd (by omega))
  obtain ⟨hunsigned₁, hunits₁⟩ := Unsigned.of_round hd₁ (below n₁ d₁ hd₁ (by omega))
  exact ⟨hunsigned₁, hunsigned₂, hunsigned, by rw [hunits₁, hunits]; exact hlow',
    by rw [hunits, hunits₂]; exact hhigh'⟩

/-! ## Operations on numbers without a sign -/

theorem Unsigned.mul_eq {x y : Binary64} (hx : x.Unsigned) (hy : y.Unsigned) :
    x * y = round false (x.magnitude * y.magnitude) one := by
  obtain ⟨m, p, h, rfl⟩ := hx.eq_finite
  obtain ⟨n, q, h', rfl⟩ := hy.eq_finite
  rfl

theorem Unsigned.add_eq {x y : Binary64} (hx : x.Unsigned) (hy : y.Unsigned) :
    x + y = round false (x.magnitude + y.magnitude) 1 := by
  have hsx := hx.scaled_eq
  have hsy := hy.scaled_eq
  obtain ⟨m, p, h, rfl⟩ := hx.eq_finite
  obtain ⟨n, q, h', rfl⟩ := hy.eq_finite
  show roundInt false _ 1 = _
  rw [hsx, hsy, ← Int.natCast_add]
  unfold roundInt
  congr 1
  split
  · rfl
  · exact decide_eq_false (by omega)

theorem Unsigned.div_eq {x y : Binary64} (hx : x.Unsigned) (hy : y.Unsigned)
    (h0 : 0 < y.magnitude) : x / y = round false (x.magnitude * one) y.magnitude := by
  obtain ⟨m, p, h, rfl⟩ := hx.eq_finite
  obtain ⟨n, q, h', rfl⟩ := hy.eq_finite
  have hn : n ≠ 0 := by
    rintro rfl
    exact absurd h0 (by simp [magnitude])
  show (if n = 0 then _ else _) = _
  rw [if_neg hn]
  rfl

theorem Unsigned.toWhole_eq {x : Binary64} (hx : x.Unsigned) :
    x.toWhole = round false (x.wholes * one) 1 := by
  obtain ⟨m, p, h, rfl⟩ := hx.eq_finite
  rfl

namespace Between

variable {low high x : Binary64}

theorem mul (h : Between low high x) {c : Binary64} (hc : c.Unsigned)
    (hfinite : (high * c).isFinite = true) : Between (low * c) (high * c) (x * c) := by
  rw [h.high_unsigned.mul_eq hc] at hfinite ⊢
  rw [h.low_unsigned.mul_eq hc, h.unsigned.mul_eq hc]
  refine between_round one_pos one_pos one_pos ?_ ?_ hfinite
  · exact Nat.mul_le_mul_right _ (Nat.mul_le_mul_right _ h.low_le)
  · exact Nat.mul_le_mul_right _ (Nat.mul_le_mul_right _ h.le_high)

theorem add (h : Between low high x) {c : Binary64} (hc : c.Unsigned)
    (hfinite : (high + c).isFinite = true) : Between (low + c) (high + c) (x + c) := by
  rw [h.high_unsigned.add_eq hc] at hfinite ⊢
  rw [h.low_unsigned.add_eq hc, h.unsigned.add_eq hc]
  refine between_round Nat.one_pos Nat.one_pos Nat.one_pos ?_ ?_ hfinite
  · exact Nat.mul_le_mul_right _ (Nat.add_le_add_right h.low_le _)
  · exact Nat.mul_le_mul_right _ (Nat.add_le_add_right h.le_high _)

theorem wholes_le {x y : Binary64} (h : x.magnitude ≤ y.magnitude) : x.wholes ≤ y.wholes := by
  unfold wholes
  exact Nat.div_le_div_right (by omega)

theorem le (h : Between low high x) : low.le x = true ∧ x.le high = true :=
  ⟨(h.low_unsigned.le_iff h.unsigned).mpr h.low_le,
    (h.unsigned.le_iff h.high_unsigned).mpr h.le_high⟩

end Between

end Academy.Binary64
