import Academy.Binary64.Basic
import Mathlib.Algebra.Order.Ring.Nat
import Mathlib.Tactic.Linarith
import Mathlib.Tactic.Ring

/-!
# Rounding keeps the order

A quotient of whole numbers is rounded by cutting it to a grid and taking
the nearer of two neighbours. Which grid it is depends on the size of the
quotient, and that is the one thing that has to be argued: where a
quotient falls onto a coarser grid than another, the first rounds to the
boundary between the grids or beyond it, and the second stops short of
it or reaches it.

From this it follows that rounding is monotone, and that it depends on the
quotient alone and not on the two numbers that it is written with. What
the significand and the power of the result are is never needed, only
their product: `roundedUnits`.
-/

namespace Academy.Binary64

/-! ## The nearest whole number -/

/-- **What the nearest whole number is**: half a unit away at most, and even
where it is exactly that. -/
theorem halfEven_spec (n : Nat) {d : Nat} (hd : 0 < d) :
    2 * n ≤ (2 * halfEven n d + 1) * d ∧ 2 * halfEven n d * d ≤ 2 * n + d ∧
      (2 * n = (2 * halfEven n d + 1) * d ∨ 2 * halfEven n d * d = 2 * n + d →
        halfEven n d % 2 = 0) := by
  have hn : d * (n / d) + n % d = n := Nat.div_add_mod n d
  have hr : n % d < d := Nat.mod_lt n hd
  unfold halfEven
  dsimp only
  generalize n / d = q at *
  generalize n % d = r at *
  split
  · next h =>
    have h₁ : (2 * q + 1) * d = 2 * (d * q) + d := by ring
    have h₂ : 2 * q * d = 2 * (d * q) := by ring
    rw [h₁, h₂]
    omega
  · next h =>
    have h₁ : (2 * (q + 1) + 1) * d = 2 * (d * q) + 3 * d := by ring
    have h₂ : 2 * (q + 1) * d = 2 * (d * q) + 2 * d := by ring
    rw [h₁, h₂]
    omega

theorem halfEven_mono {n d n' d' : Nat} (hd : 0 < d) (hd' : 0 < d') (h : n * d' ≤ n' * d) :
    halfEven n d ≤ halfEven n' d' := by
  obtain ⟨-, hlow, heven⟩ := halfEven_spec n hd
  obtain ⟨hhigh', -, heven'⟩ := halfEven_spec n' hd'
  by_contra! hlt
  generalize halfEven n d = k at *
  generalize halfEven n' d' = k' at *
  -- both quotients would have to lie halfway between `k'` and `k`
  have h₁ : (2 * k' + 1) * d ≤ 2 * n := by
    have : (2 * k' + 2) * d ≤ 2 * k * d := Nat.mul_le_mul_right d (by omega)
    have e : (2 * k' + 2) * d = (2 * k' + 1) * d + d := by ring
    omega
  have h₂ : (2 * k' + 1) * d * d' ≤ 2 * n * d' := Nat.mul_le_mul_right d' h₁
  have h₃ : 2 * n * d' ≤ 2 * n' * d := by
    rw [Nat.mul_assoc, Nat.mul_assoc]
    exact Nat.mul_le_mul_left 2 h
  have h₄ : 2 * n' * d ≤ (2 * k' + 1) * d' * d := Nat.mul_le_mul_right d hhigh'
  have e : (2 * k' + 1) * d * d' = (2 * k' + 1) * d' * d := by ring
  have tie : 2 * n = (2 * k' + 1) * d := Nat.eq_of_mul_eq_mul_right hd' (by omega)
  have tie' : 2 * n' = (2 * k' + 1) * d' := Nat.eq_of_mul_eq_mul_right hd (by omega)
  have hk : k = k' + 1 := by
    have : 2 * k * d ≤ (2 * k' + 2) * d := by
      have e' : (2 * k' + 2) * d = (2 * k' + 1) * d + d := by ring
      omega
    have := Nat.le_of_mul_le_mul_right this hd
    omega
  -- both ties go to an even number, and of two neighbours one is odd
  have even' := heven' (.inl tie')
  have even := heven (.inr (by rw [hk, tie]; ring))
  omega

/-- A whole number is the one nearest to itself. -/
theorem halfEven_mul_self (k : Nat) {d : Nat} (hd : 0 < d) : halfEven (k * d) d = k := by
  unfold halfEven
  rw [Nat.mul_div_cancel _ hd, Nat.mul_mod_left]
  simp [hd]

/-! ## The grid of a quotient -/

/-- The power of the grid that a quotient is cut to. -/
def roundingPower (num den : Nat) : Nat :=
  (num / den).log2 - 52

/-- **What a quotient is rounded to**, in units, if numbers could be as large
as they like. -/
def roundedUnits (num den : Nat) : Nat :=
  halfEven num (den * Nat.pow 2 (roundingPower num den)) * Nat.pow 2 (roundingPower num den)

theorem round_eq_pack (negative : Bool) (num den : Nat) :
    round negative num den
      = pack negative (halfEven num (den * Nat.pow 2 (roundingPower num den)))
        (roundingPower num den) := rfl

theorem lt_pow_roundingPower (num den : Nat) :
    num / den < 2 ^ (53 + roundingPower num den) := by
  refine Nat.lt_of_lt_of_le (Nat.lt_log2_self) ?_
  refine Nat.pow_le_pow_right (by decide) ?_
  unfold roundingPower
  omega

theorem pow_roundingPower_le {num den : Nat} (h : roundingPower num den ≠ 0) :
    2 ^ (52 + roundingPower num den) ≤ num / den := by
  unfold roundingPower at h ⊢
  have hne : num / den ≠ 0 := by
    intro h0
    rw [h0] at h
    exact h rfl
  calc 2 ^ (52 + ((num / den).log2 - 52)) = 2 ^ (num / den).log2 := by congr 1; omega
    _ ≤ num / den := Nat.log2_self_le hne

/-- The significand has 53 digits, or it has been rounded up to the least
number of 54. -/
theorem halfEven_le_pow (num : Nat) {den : Nat} (hden : 0 < den) :
    halfEven num (den * Nat.pow 2 (roundingPower num den)) ≤ 2 ^ 53 := by
  have hlt := lt_pow_roundingPower num den
  generalize roundingPower num den = p at *
  have hp : 0 < 2 ^ p := Nat.two_pow_pos p
  rw [Nat.pow_eq, ← halfEven_mul_self (2 ^ 53) (Nat.mul_pos hden hp)]
  refine halfEven_mono (Nat.mul_pos hden hp) (Nat.mul_pos hden hp) ?_
  refine Nat.mul_le_mul_right _ ?_
  have : num < den * 2 ^ (53 + p) := by
    rw [Nat.mul_comm]
    exact (Nat.div_lt_iff_lt_mul hden).mp hlt
  rw [pow_add] at this
  calc num ≤ den * (2 ^ 53 * 2 ^ p) := this.le
    _ = 2 ^ 53 * (den * 2 ^ p) := by ring

theorem pow_le_halfEven {num den : Nat} (hden : 0 < den) (h : roundingPower num den ≠ 0) :
    2 ^ 52 ≤ halfEven num (den * Nat.pow 2 (roundingPower num den)) := by
  have hle := pow_roundingPower_le h
  generalize roundingPower num den = p at *
  have hp : 0 < 2 ^ p := Nat.two_pow_pos p
  rw [Nat.pow_eq, ← halfEven_mul_self (2 ^ 52) (Nat.mul_pos hden hp)]
  refine halfEven_mono (Nat.mul_pos hden hp) (Nat.mul_pos hden hp) ?_
  refine Nat.mul_le_mul_right _ ?_
  have : 2 ^ (52 + p) * den ≤ num := (Nat.le_div_iff_mul_le hden).mp hle
  rw [pow_add] at this
  calc 2 ^ 52 * (den * 2 ^ p) = 2 ^ 52 * 2 ^ p * den := by ring
    _ ≤ num := this

/-- **Rounding keeps the order of quotients.** -/
theorem roundedUnits_mono {n d n' d' : Nat} (hd : 0 < d) (hd' : 0 < d')
    (h : n * d' ≤ n' * d) : roundedUnits n d ≤ roundedUnits n' d' := by
  have hdiv : n / d ≤ n' / d' := by
    rw [Nat.le_div_iff_mul_le hd']
    refine Nat.le_of_mul_le_mul_right ?_ hd
    calc n / d * d' * d = n / d * d * d' := by ring
      _ ≤ n * d' := Nat.mul_le_mul_right _ (Nat.div_mul_le_self n d)
      _ ≤ n' * d := h
  have hpower : roundingPower n d ≤ roundingPower n' d' := by
    unfold roundingPower
    have : (n / d).log2 ≤ (n' / d').log2 := by
      rcases Nat.eq_zero_or_pos (n / d) with h0 | h0
      · rw [h0]
        exact Nat.zero_le _
      · exact (Nat.le_log2 (by omega)).mpr ((Nat.log2_self_le h0.ne').trans hdiv)
    omega
  have hsignificand := halfEven_le_pow n hd
  have hsignificand' := @pow_le_halfEven n' d' hd'
  unfold roundedUnits
  generalize roundingPower n d = p at *
  generalize roundingPower n' d' = p' at *
  simp only [Nat.pow_eq] at *
  rcases hpower.eq_or_lt with rfl | hlt
  · refine Nat.mul_le_mul_right _ (halfEven_mono ?_ ?_ ?_)
    · exact Nat.mul_pos hd (Nat.two_pow_pos p)
    · exact Nat.mul_pos hd' (Nat.two_pow_pos p)
    · calc n * (d' * 2 ^ p) = n * d' * 2 ^ p := by ring
        _ ≤ n' * d * 2 ^ p := Nat.mul_le_mul_right _ h
        _ = n' * (d * 2 ^ p) := by ring
  · -- the grids differ, and a power of two lies between the results
    calc halfEven n (d * 2 ^ p) * 2 ^ p ≤ 2 ^ 53 * 2 ^ p := Nat.mul_le_mul_right _ hsignificand
      _ = 2 ^ (53 + p) := (pow_add 2 53 p).symm
      _ ≤ 2 ^ (52 + p') := Nat.pow_le_pow_right (by decide) (by omega)
      _ = 2 ^ 52 * 2 ^ p' := pow_add 2 52 p'
      _ ≤ halfEven n' (d' * 2 ^ p') * 2 ^ p' :=
        Nat.mul_le_mul_right _ (hsignificand' (by omega))

theorem roundingPower_le {num den k : Nat} (h : num / den < 2 ^ (53 + k)) :
    roundingPower num den ≤ k := by
  unfold roundingPower
  rcases Nat.eq_zero_or_pos (num / den) with h0 | h0
  · rw [h0]
    exact Nat.zero_le _
  · have := (Nat.log2_lt h0.ne').mpr h
    omega

/-- **A number of 53 digits is not changed by rounding.** -/
theorem roundedUnits_of_eq {num den m k : Nat} (hden : 0 < den) (hm : m < 2 ^ 53)
    (h : num = m * 2 ^ k * den) : roundedUnits num den = m * 2 ^ k := by
  have hpower : roundingPower num den ≤ k := by
    refine roundingPower_le ?_
    rw [h, Nat.mul_div_cancel _ hden, pow_add]
    exact Nat.mul_lt_mul_of_pos_right hm (Nat.two_pow_pos k)
  unfold roundedUnits
  rw [Nat.pow_eq]
  generalize roundingPower num den = p at *
  have hsplit : 2 ^ k = 2 ^ (k - p) * 2 ^ p := by
    rw [← pow_add]
    congr 1
    omega
  have hnum : num = m * 2 ^ (k - p) * (den * 2 ^ p) := by
    rw [h, hsplit]
    ring
  rw [hnum, halfEven_mul_self _ (Nat.mul_pos hden (Nat.two_pow_pos p)), hsplit, Nat.mul_assoc]

/-- **Rounding is near.** A quotient moves by half a step of its grid at most, and
a step is not larger than what the quotient has 53 digits for. -/
theorem roundedUnits_near {num den step : Nat} (hden : 0 < den) (hstep : den ≤ step)
    (hnum : num < 2 ^ 52 * step) :
    2 * num ≤ 2 * (roundedUnits num den * den) + step ∧
      2 * (roundedUnits num den * den) ≤ 2 * num + step := by
  have hgrid : den * 2 ^ roundingPower num den ≤ step := by
    by_cases hzero : roundingPower num den = 0
    · rw [hzero, pow_zero, Nat.mul_one]
      exact hstep
    · have hle := (Nat.le_div_iff_mul_le hden).mp (pow_roundingPower_le hzero)
      refine (Nat.lt_of_mul_lt_mul_left (a := 2 ^ 52) ?_).le
      calc 2 ^ 52 * (den * 2 ^ roundingPower num den)
          = 2 ^ (52 + roundingPower num den) * den := by rw [pow_add]; ring
        _ ≤ num := hle
        _ < 2 ^ 52 * step := hnum
  obtain ⟨hlow, hhigh, -⟩ :=
    halfEven_spec num (Nat.mul_pos hden (Nat.two_pow_pos (roundingPower num den)))
  have hunits : roundedUnits num den * den
      = halfEven num (den * 2 ^ roundingPower num den) * (den * 2 ^ roundingPower num den) := by
    unfold roundedUnits
    rw [Nat.pow_eq]
    ring
  rw [hunits]
  generalize den * 2 ^ roundingPower num den = grid at *
  generalize halfEven num grid = q at *
  have h₁ : (2 * q + 1) * grid = 2 * (q * grid) + grid := by ring
  have h₂ : 2 * q * grid = 2 * (q * grid) := by ring
  omega

/-- **Rounding depends on the quotient alone.** -/
theorem round_congr (negative : Bool) {n d n' d' : Nat} (hd : 0 < d) (hd' : 0 < d')
    (h : n * d' = n' * d) : round negative n d = round negative n' d' := by
  have hdiv : n / d = n' / d' := by
    rw [← Nat.mul_div_mul_right n d hd', h, Nat.mul_comm d d', Nat.mul_div_mul_right n' d' hd]
  have hpower : roundingPower n d = roundingPower n' d' := by
    unfold roundingPower
    rw [hdiv]
  rw [round_eq_pack, round_eq_pack, hpower]
  have hp : 0 < Nat.pow 2 (roundingPower n' d') := Nat.two_pow_pos _
  generalize Nat.pow 2 (roundingPower n' d') = c at *
  congr 1
  -- on one grid neither significand is above the other
  have e : n * (d' * c) = n' * (d * c) := by
    rw [← Nat.mul_assoc, h, Nat.mul_assoc]
  exact Nat.le_antisymm (halfEven_mono (Nat.mul_pos hd hp) (Nat.mul_pos hd' hp) e.le)
    (halfEven_mono (Nat.mul_pos hd' hp) (Nat.mul_pos hd hp) e.ge)

end Academy.Binary64
