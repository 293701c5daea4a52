import Academy.Proofs.Binary64.Nearest
import Academy.Proofs.Binary64.NearestPlaces
import Academy.Proofs.Integrity.Generated

/-!
# Discounted money stays money

A price is only nearest to a number of cents, and two of the factors are only
nearest to tenths. Their product is rounded, and rounding it to cents rounds it
three times more. What comes of it is a whole number of cents all the same, and
the right one.

This is so because cents and tenths are coarse: the exact number of cents is a
whole number of tenths, and all that has been lost before the cents are counted
(`cents_near`) is far below a tenth. So ten times the count differs from the exact
number by less than six tenths, and that is five at most, as it would be without
any error.
-/

namespace Academy

open Binary64

namespace Payment

variable {Ref : Type}

/-! ## How many cents are left -/

/-- The tenths of a price that discounts leave. -/
def tenths : List ℕ := [5, 7, 8]

theorem le_of_mem_tenths {k : ℕ} (h : k ∈ tenths) : k ≤ 8 :=
  (by decide : ∀ k ∈ tenths, k ≤ 8) k h

/-- **The factors are tenths**, rounded. -/
theorem rounds_factor {factor : Binary64} (h : factor ∈ Catalog.discountFactors) :
    ∃ k ∈ tenths, Rounds factor (k / 10) := by
  have htenths : ∀ factor ∈ Catalog.discountFactors, ∃ k ∈ tenths,
      factor = round false (k * Binary64.one) 10 := by
    decide +kernel
  obtain ⟨k, hk, rfl⟩ := htenths factor h
  have hk' : (k : ℚ) ≤ 8 := by exact_mod_cast le_of_mem_tenths hk
  refine ⟨k, hk, rounds_ratio k (by decide : 0 < 10) ?_⟩
  push_cast
  linarith

section Cents

variable {n k : ℕ} {price factor : Binary64} (hn : n < 2 ^ 40) (hk : k ≤ 8)
  (hprice : Rounds price (n / 100)) (hfactor : Rounds factor (k / 10))

include hn hk

/-- What is left of a price is moderate. -/
theorem left_bounds :
    0 ≤ (n : ℚ) / 100 * (k / 10) ∧ (n : ℚ) / 100 * (k / 10) ≤ 2 ^ 34 - 2 ^ 30 := by
  have hn' : (n : ℚ) / 100 ≤ 2 ^ 40 / 100 := by
    have : (n : ℚ) ≤ 2 ^ 40 := by exact_mod_cast hn.le
    linarith
  have hk' : (k : ℚ) / 10 ≤ 8 / 10 := by
    have : (k : ℚ) ≤ 8 := by exact_mod_cast hk
    linarith
  refine ⟨by positivity, ?_⟩
  calc (n : ℚ) / 100 * (k / 10) ≤ 2 ^ 40 / 100 * (8 / 10) :=
        mul_le_mul hn' hk' (by positivity) (by norm_num)
    _ ≤ 2 ^ 34 - 2 ^ 30 := by norm_num

include hprice hfactor

/-- **The product of the rounded price and the rounded factor**, before it is rounded. -/
theorem product_near :
    |price.value * factor.value - n / 100 * (k / 10)| ≤ 1 / 2 ^ 18 := by
  have hn' : (n : ℚ) / 100 < 2 ^ 34 := by
    have : (n : ℚ) < 2 ^ 40 := by exact_mod_cast hn
    linarith
  have hk' : (k : ℚ) / 10 ≤ 8 / 10 := by
    have : (k : ℚ) ≤ 8 := by exact_mod_cast hk
    linarith
  have hprice' : |price.value - n / 100| ≤ 1 / 2 ^ 19 := by
    refine hprice.near (j := 18) (by norm_num) ?_
    rw [abs_of_nonneg (by positivity)]
    linarith
  have hfactor' : |factor.value - k / 10| ≤ 1 / 2 ^ 53 := by
    refine hfactor.near (j := 52) (by norm_num) ?_
    rw [abs_of_nonneg (by positivity)]
    linarith
  have hsmall : |factor.value| ≤ 1 := by
    have h₀ : (0 : ℚ) ≤ k / 10 := by positivity
    obtain ⟨h₁, h₂⟩ := abs_le.mp hfactor'
    exact abs_le.mpr ⟨by linarith, by linarith⟩
  calc |price.value * factor.value - n / 100 * (k / 10)|
      = |(price.value - n / 100) * factor.value + n / 100 * (factor.value - k / 10)| := by
        congr 1
        ring
    _ ≤ |(price.value - n / 100) * factor.value| + |n / 100 * (factor.value - k / 10)| :=
        abs_add_le _ _
    _ = |price.value - n / 100| * |factor.value| + n / 100 * |factor.value - k / 10| := by
        rw [abs_mul, abs_mul, abs_of_nonneg (by positivity : (0 : ℚ) ≤ n / 100)]
    _ ≤ 1 / 2 ^ 19 * 1 + 2 ^ 34 * (1 / 2 ^ 53) := by gcongr
    _ = 1 / 2 ^ 18 := by norm_num

/-- **The number whose whole cents are counted.** -/
theorem cents_near :
    |rounded (rounded (price.value * factor.value) * 10 ^ 2) - n * (k / 10)| ≤ 1 / 2 ^ 9 := by
  obtain ⟨hleft₀, hleft₁⟩ := left_bounds hn hk
  have hproduct := product_near hn hk hprice hfactor
  generalize price.value * factor.value = product at *
  have hexact : (n : ℚ) * (k / 10) = n / 100 * (k / 10) * 10 ^ 2 := by ring
  rw [hexact]
  generalize (n : ℚ) / 100 * (k / 10) = left at *
  obtain ⟨hproduct₁, hproduct₂⟩ := abs_le.mp hproduct
  have hrounded : |rounded product - product| ≤ 1 / 2 ^ 19 := by
    refine rounded_near (j := 18) (by norm_num) ?_
    have : |product| < 2 ^ 34 := abs_lt.mpr ⟨by linarith, by linarith⟩
    linarith
  generalize rounded product = r at *
  obtain ⟨hrounded₁, hrounded₂⟩ := abs_le.mp hrounded
  have hscaled : |rounded (r * 10 ^ 2) - r * 10 ^ 2| ≤ 1 / 2 ^ 11 := by
    refine rounded_near (j := 10) (by norm_num) ?_
    have : |r * 10 ^ 2| < 2 ^ 41 := abs_lt.mpr ⟨by linarith, by linarith⟩
    linarith
  obtain ⟨hscaled₁, hscaled₂⟩ := abs_le.mp hscaled
  exact abs_le.mpr ⟨by linarith, by linarith⟩

/-- **The cents that are counted are off by a half at most.** -/
theorem abs_ten_mul_cents :
    |10 * unitsAt 2 (rounded (price.value * factor.value)) - (k * n : ℤ)| ≤ 5 := by
  have hcents := cents_near hn hk hprice hfactor
  have hcount := abs_nearestWhole_sub
    (rounded (rounded (price.value * factor.value) * 10 ^ 2))
  unfold unitsAt
  generalize rounded (rounded (price.value * factor.value) * 10 ^ 2) = r at *
  obtain ⟨hcents₁, hcents₂⟩ := abs_le.mp hcents
  obtain ⟨hcount₁, hcount₂⟩ := abs_le.mp hcount
  -- a whole number below six is at most five
  have hless : |10 * (nearestWhole r : ℚ) - k * n| < 6 :=
    abs_lt.mpr ⟨by linarith, by linarith⟩
  have hless' : |10 * nearestWhole r - (k * n : ℤ)| < 6 := by exact_mod_cast hless
  exact Int.lt_add_one_iff.mp hless'

/-- **What a discount leaves is a whole number of cents**, rounded once. -/
theorem rounds_discounted :
    ∃ c, c ≤ n ∧ |10 * c - (k * n : ℤ)| ≤ 5 ∧
      Rounds ((price * factor).roundTo 2) ((c : ℕ) / 100) := by
  have hcents := abs_ten_mul_cents hn hk hprice hfactor
  obtain ⟨hleft₀, hleft₁⟩ := left_bounds hn hk
  have hproduct := abs_le.mp (product_near hn hk hprice hfactor)
  have hsmall : |price.value * factor.value| ≤ (2 ^ 40 : ℕ) :=
    abs_le.mpr ⟨by push_cast; linarith, by push_cast; linarith⟩
  have hrounds : Rounds (price * factor) (price.value * factor.value) :=
    rounds_mul hprice.1 hfactor.1 (hsmall.trans (by norm_num))
  have hmoderate : (price * factor).Moderate := by
    refine ⟨hrounds.1, ?_⟩
    rw [hrounds.2]
    exact_mod_cast abs_rounded_le (by norm_num) hsmall
  have hamount := rounds_roundTo (le_refl 2) hmoderate
  rw [hrounds.2] at hamount
  generalize unitsAt 2 (rounded (price.value * factor.value)) = count at *
  obtain ⟨hcents₁, hcents₂⟩ := abs_le.mp hcents
  have htenths : (k * n : ℤ) ≤ 8 * n := by exact_mod_cast Nat.mul_le_mul_right n hk
  have hnonneg : (0 : ℤ) ≤ k * n := Int.natCast_nonneg (k * n)
  obtain ⟨c, rfl⟩ := Int.eq_ofNat_of_zero_le (show 0 ≤ count by omega)
  refine ⟨c, by omega, hcents, ?_⟩
  norm_num at hamount
  exact hamount

end Cents

/-! ## What is paid -/

variable {Date : Type}

/-- What is paid of a price with a discount, and without one. -/
def Leaves (price : Binary64) (discount : Bool) (amount : Binary64) : Prop :=
  if discount then ∃ factor ∈ Catalog.discountFactors, amount = (price * factor).roundTo 2
  else amount = price

/-- **The first thing that is drawn for a payment is whether there is a discount.** -/
theorem drawAmount_reads (price : Binary64) (stream : WordStream) :
    ∃ discount amount rest,
      ((Draw.chance discountProbability).readFrom stream).1 = .ok discount ∧
      (drawAmount price).readFrom stream = (.ok amount, rest) ∧ Leaves price discount amount := by
  obtain ⟨discount, mid, hdiscount, -⟩ := (Draw.chance_gives discountProbability).reads stream
  unfold drawAmount
  rw [Draw.readFrom_bind_of_ok hdiscount]
  cases discount with
  | false => exact ⟨false, price, mid, congrArg Prod.fst hdiscount, rfl, rfl⟩
  | true =>
    have hpick : ∃ amount rest, Draw.readFrom _ mid = (.ok amount, rest) ∧
        Leaves price true amount :=
      ((Draw.pick_gives Catalog.discountFactors (by decide)).bind fun factor hfactor =>
        Draw.gives_pure ⟨factor, hfactor, rfl⟩).reads mid
    obtain ⟨amount, rest, hread, hamount⟩ := hpick
    exact ⟨true, amount, rest, congrArg Prod.fst hdiscount, hread, hamount⟩

/-- **A payment is made wherever the calendar reaches back far enough.** -/
theorem draw_reads {timeline : Timeline Date} (hreach : paymentDays ≤ timeline.reach)
    (price : Binary64) (status : PaymentStatus) (student course id : Ref) (stream : WordStream) :
    ∃ discount payment rest,
      ((Draw.chance discountProbability).readFrom stream).1 = .ok discount ∧
      (draw timeline price status student course id).readFrom stream = (.ok payment, rest) ∧
      Leaves price discount payment.amount := by
  obtain ⟨discount, amount, mid, hdiscount, hread, hamount⟩ := drawAmount_reads price stream
  have hdraw : ∃ payment rest,
      (draw timeline price status student course id).readFrom stream = (.ok payment, rest) ∧
        payment.amount = amount := by
    unfold draw
    rw [Draw.readFrom_bind_of_ok hread]
    refine Draw.Gives.reads ?_ mid
    refine (timeline.draw_gives fun h => absurd h (Nat.not_lt.mpr hreach)).bind fun paidAt _ => ?_
    refine (Draw.pick_gives _ _).bind fun method _ => ?_
    exact (Draw.within_gives (by decide)).bind fun number _ => Draw.gives_pure rfl
  obtain ⟨payment, rest, hpayment, rfl⟩ := hdraw
  exact ⟨discount, payment, rest, hdiscount, hpayment, hamount⟩

/-- Fewer cents are not more money. -/
theorem le_of_cents_le {c n : ℕ} (h : c ≤ n) {amount price : Binary64}
    (hamount : Rounds amount (c / 100)) (hprice : Rounds price (n / 100)) :
    Binary64.le 0 amount = true ∧ amount.le price = true := by
  have h' : (c : ℚ) ≤ n := by exact_mod_cast h
  have hpositive : 0 ≤ rounded (c / 100) := rounded_nonneg (by positivity)
  have hle : rounded (c / 100) ≤ rounded (n / 100) := rounded_mono (by linarith)
  simp [le_iff_value, hamount.1, hprice.1, hamount.2, hprice.2, hpositive, hle]

/-- **Discounted money stays money.** Take a price that is nearest to a whole number
of cents, anything that the payment is known by, any state of the words, and a present
that has 730 days before it. A payment is made, and what is paid is nearest to a whole
number of cents too, neither below zero nor above the price. Without a discount it is the
price, and with one it is half of it, seven tenths or eight, to the nearest cent. -/
theorem draw_nearestCent (now : Instant) (hnow : (now.daysBefore 730).inCalendar = true)
    {n : ℕ} (hn : n < 2 ^ 40) {price : Binary64} (hprice : IsNearest price (n / 100))
    (status : PaymentStatus) (student course id : Ref) (stream : WordStream) :
    ∃ discount payment rest,
      ((Draw.chance discountProbability).readFrom stream).1 = .ok discount ∧
      (draw now.timeline price status student course id).readFrom stream = (.ok payment, rest) ∧
      ∃ c : ℕ, c ≤ n ∧ IsNearest payment.amount (c / 100) ∧
        (if discount then ∃ k ∈ tenths, |(10 * c - k * n : ℤ)| ≤ 5
          else c = n ∧ payment.amount = price) ∧
        Binary64.le 0 payment.amount = true ∧ payment.amount.le price = true := by
  have hreach : paymentDays ≤ now.timeline.reach := Instant.le_reach hnow
  obtain ⟨discount, payment, rest, hdiscount, hread, hamount⟩ :=
    draw_reads hreach price status student course id stream
  refine ⟨discount, payment, rest, hdiscount, hread, ?_⟩
  have hsmall : |(n : ℚ) / 100| ≤ 2 ^ 100 := by
    have : (n : ℚ) < 2 ^ 40 := by exact_mod_cast hn
    rw [abs_of_nonneg (by positivity)]
    linarith
  have hrounds := hprice.rounds hsmall
  cases discount with
  | false =>
    obtain rfl : payment.amount = price := hamount
    exact ⟨n, le_refl n, hprice, ⟨rfl, rfl⟩, le_of_cents_le (le_refl n) hrounds hrounds⟩
  | true =>
    obtain ⟨factor, hfactor, hpaid⟩ : ∃ _, _ := hamount
    obtain ⟨k, hk, htenths⟩ := rounds_factor hfactor
    obtain ⟨c, hc, hcents, hnearest⟩ := rounds_discounted hn (le_of_mem_tenths hk) hrounds htenths
    rw [hpaid]
    exact ⟨c, hc, hnearest.isNearest, ⟨k, hk, hcents⟩, le_of_cents_le hc hnearest hrounds⟩

/-- Half of 99.99 lies in the middle between two numbers of cents. -/
theorem draw_nearestCent_halfCent :
    ((Instant.ofSeconds 1700000000).daysBefore 730).inCalendar = true ∧ 9999 < 2 ^ 40 ∧
      IsNearest 99.99 ((9999 : ℕ) / 100) ∧
      ∀ stream, ∃ payment rest,
        (draw (Instant.ofSeconds 1700000000).timeline 99.99 .completed 1 2 3).readFrom stream
          = (.ok payment, rest) ∧
        ∃ c ∈ [9999, 4999, 5000, 6999, 7999], IsNearest payment.amount ((c : ℕ) / 100) := by
  have hnow : ((Instant.ofSeconds 1700000000).daysBefore 730).inCalendar = true := by decide
  have hratio : round false (9999 * Binary64.one) 100 = 99.99 := by decide +kernel
  have hprice : IsNearest 99.99 ((9999 : ℕ) / 100) :=
    hratio ▸ (rounds_ratio 9999 (by decide : 0 < 100) (by norm_num)).isNearest
  refine ⟨hnow, by norm_num, hprice, fun stream => ?_⟩
  obtain ⟨discount, payment, rest, -, hread, c, -, hnearest, hcents, -⟩ :=
    draw_nearestCent _ hnow (by norm_num) hprice .completed 1 2 3 stream
  refine ⟨payment, rest, hread, c, ?_, hnearest⟩
  cases discount with
  | false =>
    rw [hcents.1]
    decide
  | true =>
    obtain ⟨k, hk, hcents⟩ : ∃ _, _ := hcents
    obtain ⟨hlow, hhigh⟩ := abs_le.mp hcents
    simp only [tenths, List.mem_cons, List.not_mem_nil, or_false] at hk ⊢
    omega

end Payment

end Academy
