import Academy.Proofs.Binary64.Places

/-!
# Whole numbers with too many digits

A whole number of more than 53 binary digits is rounded to a multiple of a
power of two. It stays a whole number, so nothing further is lost when it
is rounded to one, and what is lost is seen without counting units.
-/

namespace Academy.Binary64

/-- Only the quotient counts. -/
theorem halfEven_mul_right (n : Nat) {d c : Nat} (hd : 0 < d) (hc : 0 < c) :
    halfEven (n * c) (d * c) = halfEven n d := by
  have hdc : 0 < d * c := Nat.mul_pos hd hc
  have e : n * c * d = n * (d * c) := by ring
  exact Nat.le_antisymm (halfEven_mono hdc hd e.le) (halfEven_mono hd hdc e.ge)

/-- The multiple of a power of two that a whole number is rounded to. -/
theorem roundedUnits_whole {n p : Nat} (hlow : 2 ^ (52 + p) ≤ n) (hhigh : n < 2 ^ (53 + p)) :
    roundedUnits (n * one) 1 = halfEven n (2 ^ p) * 2 ^ p * one := by
  obtain ⟨k, -, hone⟩ := one_eq_pow
  have hk : 0 < 2 ^ k := Nat.two_pow_pos k
  have hn : 0 < n := (Nat.two_pow_pos _).trans_le hlow
  have hpower : roundingPower (n * 2 ^ k) 1 = p + k := by
    have hlog : (n * 2 ^ k).log2 = 52 + p + k := by
      rw [Nat.log2_eq_iff (Nat.mul_pos hn hk).ne', pow_add 2 (52 + p) k]
      refine ⟨Nat.mul_le_mul_right _ hlow, ?_⟩
      calc n * 2 ^ k < 2 ^ (53 + p) * 2 ^ k := Nat.mul_lt_mul_of_pos_right hhigh hk
        _ = 2 ^ (52 + p + k + 1) := by rw [← pow_add]; congr 1; omega
    unfold roundingPower
    rw [Nat.div_one, hlog]
    omega
  unfold roundedUnits
  rw [hone, hpower, Nat.pow_eq, Nat.one_mul, pow_add,
    halfEven_mul_right n (Nat.two_pow_pos p) hk, Nat.mul_assoc]

/-- A multiple of a power of two that has 53 digits without it is too small to be
infinite. -/
theorem round_whole_finite {n m p : Nat} (hm : m ≤ 2 ^ 53) (hp : p ≤ 800)
    (h : roundedUnits (n * one) 1 = m * 2 ^ p * one) :
    (round false (n * one) 1).Unsigned ∧
      (round false (n * one) 1).magnitude = m * 2 ^ p * one := by
  have hfinite : (round false (n * one) 1).isFinite = true := by
    rcases round_cases false (n * one) Nat.one_pos with ⟨hfinite, -⟩ | ⟨-, hlimit⟩
    · exact hfinite
    · exfalso
      obtain ⟨k, hk, hone⟩ := one_eq_pow
      obtain ⟨l, hl, hunits⟩ := unitLimit_eq_pow
      rw [h, hone, hunits] at hlimit
      have hlt : m * 2 ^ p * 2 ^ k < 2 ^ 52 * 2 ^ l := by
        calc m * 2 ^ p * 2 ^ k ≤ 2 ^ 53 * 2 ^ p * 2 ^ k :=
              Nat.mul_le_mul_right _ (Nat.mul_le_mul_right _ hm)
          _ = 2 ^ (53 + p + k) := by rw [← pow_add, ← pow_add]
          _ < 2 ^ (52 + l) := Nat.pow_lt_pow_right (by decide) (by omega)
          _ = 2 ^ 52 * 2 ^ l := pow_add 2 52 l
      exact absurd hlimit (Nat.not_le.mpr hlt)
  obtain ⟨hunsigned, hmagnitude⟩ := Unsigned.of_round Nat.one_pos hfinite
  exact ⟨hunsigned, hmagnitude.trans h⟩

/-- A multiple of a power of two with at most 53 digits in front of it is not
changed by rounding, also where the digits have been carried. -/
theorem roundedUnits_multiple {m p : Nat} (hm : m ≤ 2 ^ 53) :
    roundedUnits (m * 2 ^ p * one) 1 = m * 2 ^ p * one := by
  obtain ⟨k, -, hone⟩ := one_eq_pow
  rw [hone]
  rcases Nat.lt_or_eq_of_le hm with hlt | rfl
  · have hunits : m * 2 ^ p * 2 ^ k = m * 2 ^ (p + k) := by rw [pow_add, Nat.mul_assoc]
    rw [hunits]
    exact roundedUnits_of_eq Nat.one_pos hlt (Nat.mul_one _).symm
  · have hunits : 2 ^ 53 * 2 ^ p * 2 ^ k = 2 ^ 52 * 2 ^ (1 + p + k) := by
      rw [← pow_add, ← pow_add, ← pow_add]
      congr 1
      omega
    rw [hunits]
    exact roundedUnits_of_eq Nat.one_pos (by decide) (Nat.mul_one _).symm

/-- **A whole number of many digits** is cut to 53 of them, and this is what its
nearest whole number holds. -/
theorem toWhole_ofNat {n p : Nat} (hp : p ≤ 800) (hlow : 2 ^ (52 + p) ≤ n)
    (hhigh : n < 2 ^ (53 + p)) (limit : Nat) :
    (ofNat n).toWhole.floorWithin limit = min (halfEven n (2 ^ p) * 2 ^ p) limit := by
  have hm : halfEven n (2 ^ p) ≤ 2 ^ 53 := by
    rw [← halfEven_mul_self (2 ^ 53) (Nat.two_pow_pos p)]
    refine halfEven_mono (Nat.two_pow_pos p) (Nat.two_pow_pos p) (Nat.mul_le_mul_right _ ?_)
    rw [← pow_add]
    exact hhigh.le
  generalize hq : halfEven n (2 ^ p) = m at hm ⊢
  obtain ⟨hunsigned, hmagnitude⟩ := round_whole_finite hm hp (hq ▸ roundedUnits_whole hlow hhigh)
  have hwholes : (ofNat n).wholes = m * 2 ^ p := by
    unfold wholes
    rw [show (ofNat n).magnitude = m * 2 ^ p * one from hmagnitude,
      show 2 * (m * 2 ^ p * one) + one = one + 2 * one * (m * 2 ^ p) by ring,
      Nat.add_mul_div_left _ _ (by have := one_pos; omega),
      Nat.div_eq_of_lt (by have := one_pos; omega), Nat.zero_add]
  rw [show (ofNat n).toWhole = round false ((ofNat n).wholes * one) 1 from
    Unsigned.toWhole_eq hunsigned, hwholes]
  obtain ⟨hwhole, hunits⟩ := round_whole_finite hm hp (roundedUnits_multiple hm)
  obtain ⟨s, q, hcanonical, heq⟩ := hwhole.eq_finite
  rw [heq] at hunits ⊢
  show min (s * Nat.pow 2 q / one) limit = _
  rw [show s * Nat.pow 2 q = m * 2 ^ p * one from hunits, Nat.mul_div_cancel _ one_pos]

end Academy.Binary64
