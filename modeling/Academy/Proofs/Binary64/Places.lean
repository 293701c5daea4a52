import Academy.Proofs.Binary64.Order

/-!
# Numbers of decimal places

A number that has been rounded to decimal places is a whole number divided
by a power of ten, and it is the quotient of two numbers that are exact.
So it is nothing but the rounded quotient of two whole numbers, and
whatever is true of it – how it is written, whether it is positive – can
be read off the whole number above the line: `HasPlaces` keeps the
interval in which that lies.
-/

namespace Academy.Binary64

theorem one_eq_pow : ∃ k, k = 1074 ∧ one = 2 ^ k := by
  refine ⟨1074, rfl, ?_⟩
  unfold one
  generalize 1074 = k
  rfl

/-! ## Whole numbers -/

/-- **Whole numbers of 53 digits are exact.** -/
theorem ofNat_exact {n : Nat} (hn : n < 2 ^ 53) :
    (ofNat n).Unsigned ∧ (ofNat n).magnitude = n * one := by
  obtain ⟨k, hk, hone⟩ := one_eq_pow
  have hunits : roundedUnits (n * one) 1 = n * one := by
    rw [hone]
    exact roundedUnits_of_eq Nat.one_pos hn (Nat.mul_one _).symm
  have hfinite : (round false (n * one) 1).isFinite = true := by
    rcases round_cases false (n * one) Nat.one_pos with ⟨h, -⟩ | ⟨-, h⟩
    · exact h
    · exfalso
      obtain ⟨l, hl, hlimit⟩ := unitLimit_eq_pow
      rw [hunits, hone, hlimit] at h
      -- the units would have to reach a limit that is far above them
      have hlt : n * 2 ^ k < 2 ^ (53 + k) := by
        rw [pow_add]
        exact Nat.mul_lt_mul_of_pos_right hn (Nat.two_pow_pos _)
      have hle : 2 ^ (53 + k) ≤ 2 ^ (52 + l) := Nat.pow_le_pow_right (by decide) (by omega)
      rw [pow_add 2 52 l] at hle
      exact absurd (h.trans_lt hlt) (Nat.not_lt.mpr hle)
  obtain ⟨hunsigned, hmagnitude⟩ := Unsigned.of_round Nat.one_pos hfinite
  exact ⟨hunsigned, hmagnitude.trans hunits⟩

/-- The quotient of exact numbers is the rounded quotient. -/
theorem ofNat_div_ofNat {n k : Nat} (hn : n < 2 ^ 53) (hk : k < 2 ^ 53) (h0 : 0 < k) :
    ofNat n / ofNat k = round false (n * one) k := by
  obtain ⟨hunsigned, hmagnitude⟩ := ofNat_exact hn
  obtain ⟨hunsigned', hmagnitude'⟩ := ofNat_exact hk
  have hpos : 0 < (ofNat k).magnitude := by
    rw [hmagnitude']
    exact Nat.mul_pos h0 one_pos
  rw [hunsigned.div_eq hunsigned' hpos, hmagnitude, hmagnitude']
  refine round_congr false (Nat.mul_pos h0 one_pos) h0 ?_
  ring

/-! ## Decimal places -/

/-- **So many units of a decimal place**, as it comes of rounding. -/
def ofPlaces (n : Nat) (places : Int) : Binary64 :=
  ofNat n / placesFactor places

/-- **Rounding to decimal places makes a number of these places.** -/
theorem roundTo_eq_ofPlaces {x : Binary64} {places : Int}
    (h : (x * placesFactor places).Unsigned) :
    x.roundTo places = ofPlaces (x * placesFactor places).wholes places := by
  unfold roundTo ofPlaces
  rw [h.toWhole_eq]
  rfl

theorem placesFactor_one : placesFactor 1 = ofNat 10 := by decide +kernel

theorem placesFactor_two : placesFactor 2 = ofNat 100 := by decide +kernel

/-- **A number of decimal places** whose count of units lies between two
numbers. -/
def HasPlaces (places : Int) (least greatest : Nat) (x : Binary64) : Prop :=
  ∃ n, least ≤ n ∧ n ≤ greatest ∧ x = ofPlaces n places

/-- The count of units is found by rounding, which is how a given number can be
told to have decimal places. -/
def countUnits (k : Nat) (x : Binary64) : Nat :=
  (2 * x.magnitude * k + one) / (2 * one)

namespace HasPlaces

variable {places : Int} {least greatest : Nat} {x : Binary64}

theorem of_countUnits {k : Nat} (hfactor : placesFactor places = ofNat k) (hk : k < 2 ^ 53)
    (h0 : 0 < k) (hgreatest : greatest < 2 ^ 53)
    (h : least ≤ countUnits k x ∧ countUnits k x ≤ greatest ∧
      x = round false (countUnits k x * one) k) : HasPlaces places least greatest x := by
  obtain ⟨hlow, hhigh, hx⟩ := h
  refine ⟨countUnits k x, hlow, hhigh, ?_⟩
  rw [ofPlaces, hfactor, ofNat_div_ofNat (by omega) hk h0]
  exact hx

/-- Whole numbers have any number of decimal places. -/
theorem whole {k n : Nat} (hfactor : placesFactor places = Binary64.ofNat k) (hk : k < 2 ^ 53)
    (h0 : 0 < k) (hn : n * k < 2 ^ 53) :
    HasPlaces places (n * k) (n * k) (Binary64.ofNat n) := by
  refine ⟨n * k, Nat.le_refl _, Nat.le_refl _, ?_⟩
  rw [ofPlaces, hfactor, ofNat_div_ofNat hn hk h0]
  refine round_congr false Nat.one_pos h0 ?_
  ring

theorem mono {least' greatest' : Nat} (h : HasPlaces places least greatest x)
    (hlow : least' ≤ least) (hhigh : greatest ≤ greatest') :
    HasPlaces places least' greatest' x := by
  obtain ⟨n, h₁, h₂, rfl⟩ := h
  exact ⟨n, hlow.trans h₁, h₂.trans hhigh, rfl⟩

/-- **A number of decimal places lies between the ends of its interval.** -/
theorem between (h : HasPlaces places least greatest x) {k : Nat}
    (hfactor : placesFactor places = ofNat k) (hk : k < 2 ^ 53) (h0 : 0 < k)
    (hgreatest : greatest < 2 ^ 53)
    (hfinite : (round false (greatest * one) k).isFinite = true) :
    Between (round false (least * one) k) (round false (greatest * one) k) x := by
  obtain ⟨n, h₁, h₂, rfl⟩ := h
  rw [ofPlaces, hfactor, ofNat_div_ofNat (by omega) hk h0]
  refine between_round h0 h0 h0 ?_ ?_ hfinite
  · exact Nat.mul_le_mul_right _ (Nat.mul_le_mul_right _ h₁)
  · exact Nat.mul_le_mul_right _ (Nat.mul_le_mul_right _ h₂)

/-- What is told of all numbers of an interval by its ends. -/
theorem unsigned_pos (h : HasPlaces places least greatest x) {k : Nat}
    (hfactor : placesFactor places = Binary64.ofNat k) (hk : k < 2 ^ 53) (h0 : 0 < k)
    (hgreatest : greatest < 2 ^ 53)
    (hfinite : (round false (greatest * one) k).isFinite = true)
    (hpos : 0 < (round false (least * one) k).magnitude) : x.Unsigned ∧ 0 < x.magnitude := by
  have hbetween := h.between hfactor hk h0 hgreatest hfinite
  exact ⟨hbetween.unsigned, hpos.trans_le hbetween.low_le⟩

/-- **A part of a number of decimal places**, rounded to these places, is not
above the number that the same part of the upper end comes to. -/
theorem part (h : HasPlaces places least greatest x) {k : Nat}
    (hfactor : placesFactor places = Binary64.ofNat k) (hk : k < 2 ^ 53) (h0 : 0 < k)
    (hgreatest : greatest < 2 ^ 53) {c : Binary64} (hc : c.Unsigned)
    (hunsigned : (placesFactor places).Unsigned)
    (hfinite : (round false (greatest * one) k).isFinite = true)
    (hpart : (round false (greatest * one) k * c).isFinite = true)
    (hscaled : (round false (greatest * one) k * c * placesFactor places).isFinite = true)
    {most : Nat}
    (hmost : (round false (greatest * one) k * c * placesFactor places).wholes ≤ most) :
    HasPlaces places 0 most ((x * c).roundTo places) := by
  have hbetween := ((h.between hfactor hk h0 hgreatest hfinite).mul hc hpart).mul hunsigned hscaled
  refine ⟨_, Nat.zero_le _, ?_, roundTo_eq_ofPlaces hbetween.unsigned⟩
  exact (Between.wholes_le hbetween.le_high).trans hmost

end HasPlaces

end Academy.Binary64
