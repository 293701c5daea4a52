import Academy.Proofs.Binary64.Shortest
import Academy.Proofs.Calendar.Text
import Academy.Proofs.Json.Codec

/-!
# Numbers of few decimal places survive

The reader of numerals takes the digits as a whole number and divides it
by a power of ten, which rounds once if both are exact. Other readers, and
the one that the shortest digits were found with, round the quotient of
two whole numbers. For the numbers of a dataset the digits are few enough
for the two to be the same, and then what is read is what was written
(`HasPlaces.survives`).

The text is read as it is laid out: digits, a point and digits. Neither
of these is empty, there is no leading zero that is too many, and together
they count the same units as the decimal that they were made from.
-/

namespace Academy

namespace Numeral

/-! ## What a numeral is worth -/

theorem takeWhole_eq {n : Nat} {s : List Char}
    (h : n * 10 ^ s.length + digitsValue s < UInt64.size) :
    takeWhole n s = (n * 10 ^ s.length + digitsValue s, 0) := by
  induction s generalizing n with
  | nil =>
    rw [takeWhole, List.length_nil, pow_zero, Nat.mul_one]
    rfl
  | cons c s ih =>
    have hvalue : digitsValue (c :: s) = digit c * 10 ^ s.length + digitsValue s := by
      rw [← List.singleton_append, digitsValue_append]
      congr 2
      exact (Nat.zero_add _)
    have hnext : n * 10 ^ (c :: s).length + digitsValue (c :: s)
        = (10 * n + digit c) * 10 ^ s.length + digitsValue s := by
      rw [hvalue, List.length_cons, pow_succ]
      ring
    rw [hnext] at h ⊢
    have hle : 10 * n + digit c ≤ (10 * n + digit c) * 10 ^ s.length :=
      Nat.le_mul_of_pos_right _ (Nat.pow_pos (by decide))
    rw [takeWhole, if_pos (by omega), ih h]

theorem powerOfTen_eq {k : Nat} (hk : k ≤ 15) : powerOfTen k = Binary64.ofNat (10 ^ k) := by
  unfold powerOfTen Binary64.ofDecimal
  rw [if_neg Nat.one_ne_zero, if_neg (by omega), if_neg (by omega), if_pos (by omega),
    Int.toNat_natCast, Nat.one_mul]
  rfl

open Binary64 in
/-- Few digits over a small power of ten are rounded once. -/
theorem scale_eq {digits k : Nat} (hdigits : digits < 2 ^ 53) (h0 : 0 < k) (hk : k ≤ 15) :
    scale digits (-(k : Int)) = some (round false (digits * one) (10 ^ k)) := by
  have hpower : 10 ^ k < 2 ^ 53 :=
    (Nat.pow_le_pow_right (by decide) hk).trans_lt (by decide)
  unfold scale
  dsimp only
  rw [if_pos (by omega), Int.neg_neg, Int.toNat_natCast, divideByPower, if_pos (by omega),
    powerOfTen_eq hk, ofNat_div_ofNat hdigits hpower (Nat.pow_pos (by decide))]

open Binary64 in
/-- **A numeral of few digits** is the rounded quotient that it writes. -/
theorem toReal_of_digits {negative : Bool} {whole fraction : List Char}
    (hvalue : digitsValue (whole ++ fraction) < 2 ^ 53) (hsome : fraction ≠ [])
    (hfew : fraction.length ≤ 15) :
    toReal ⟨negative, whole, fraction, none⟩
      = some (round false (digitsValue (whole ++ fraction) * one) (10 ^ fraction.length)) := by
  have happend := digitsValue_append whole fraction
  have hle : digitsValue whole ≤ digitsValue whole * 10 ^ fraction.length :=
    Nat.le_mul_of_pos_right _ (Nat.pow_pos (by decide))
  have hsize : 2 ^ 53 < UInt64.size := by decide
  have hwhole : takeWhole 0 whole = (digitsValue whole, 0) := by
    rw [takeWhole_eq (by omega), Nat.zero_mul, Nat.zero_add]
  have hfraction : takeWhole (digitsValue whole) fraction
      = (digitsValue (whole ++ fraction), 0) := by
    rw [takeWhole_eq (by omega), ← happend]
  have hexponent : max Int32.minValue.toInt
      (min (((0 : Nat) : Int) - (fraction.length - 0 : Nat) + 0) Int32.maxValue.toInt)
      = -(fraction.length : Int) := by
    have hmin : Int32.minValue.toInt = -2147483648 := by decide
    have hmax : Int32.maxValue.toInt = 2147483647 := by decide
    rw [hmin, hmax]
    omega
  unfold toReal
  rw [hwhole]
  dsimp only
  rw [hfraction]
  refine Eq.trans (congrArg (scale _) hexponent) ?_
  exact scale_eq hvalue (List.length_pos_iff.mpr hsome) hfew

end Numeral

/-- A numeral that is not whole is read as what it is worth. -/
theorem numeralReading_of_toReal {n : Numeral} {x : Binary64} (hwhole : n.isWhole = false)
    (hreal : n.toReal = some x) :
    numeralReading n = .scalar (.ok (.number (.real (if n.negative then -x else x)))) none := by
  unfold numeralReading Numeral.number?
  rw [hwhole, hreal]
  simp only [Bool.false_eq_true, false_and, if_false, Option.map_some]

/-! ## How digits are laid out -/

/-- **A text of digits with a point**, in two parts that are read as they
stand. -/
structure Pointed (s whole fraction : List Char) : Prop where
  /-- The parts and the point make up the text. -/
  text : s = whole ++ '.' :: fraction
  /-- A numeral can begin with what is before the point. -/
  leading : Leading whole
  /-- What is after it consists of digits. -/
  isDigit : ∀ c ∈ fraction, c.isDigit = true
  /-- There is a digit after the point. -/
  fraction_ne : fraction ≠ []

theorem Pointed.readMagnitude {s whole fraction : List Char} (h : Pointed s whole fraction)
    (negative : Bool) :
    readMagnitude negative s = (numeralReading ⟨negative, whole, fraction, none⟩, []) := by
  have hread : Academy.readMagnitude negative (whole ++ ('.' :: fraction ++ [])) = _ :=
    readMagnitude_text h.leading (.present h.isDigit h.fraction_ne) .absent
  rw [List.append_nil, ← h.text] at hread
  exact hread

/-- A whole number: its digits, zeros up to the point, and one after it. -/
theorem pointed_whole {digits : Nat} (h0 : 0 < digits) (zeros : Nat) :
    Pointed (Nat.toDigits 10 digits ++ List.replicate zeros '0' ++ ['.', '0'])
      (Nat.toDigits 10 digits ++ List.replicate zeros '0') ['0'] where
  text := rfl
  leading := by
    refine ⟨fun c hc => ?_, List.append_ne_nil_of_left_ne_nil Nat.toDigits_ne_nil _,
      fun c t heq => ?_⟩
    · rcases List.mem_append.mp hc with hc | hc
      · exact isDigit_of_mem_toDigits hc
      · exact isDigit_of_mem_zeros hc
    · rcases hdigits : Nat.toDigits 10 digits with _ | ⟨c', s⟩
      · exact Nat.toDigits_ne_nil hdigits
      · rw [hdigits, List.cons_append] at heq
        obtain rfl := (List.cons.inj heq).1
        exact toDigits_ne_zero_cons h0 s hdigits
  isDigit := List.forall_mem_singleton.mpr rfl
  fraction_ne := List.cons_ne_nil _ _

/-- **Digits that are split by a point**: as many after it as there are places,
and before it what there is, which is a zero at least. -/
theorem pointed_split {digits places : Nat} (h0 : 0 < digits) (hplaces : 0 < places) :
    let padded := paddedDigits (places + 1) digits
    Pointed (padded.take (padded.length - places) ++ '.' :: padded.drop (padded.length - places))
        (padded.take (padded.length - places)) (padded.drop (padded.length - places)) ∧
      (padded.drop (padded.length - places)).length = places := by
  intro padded
  have hlength : places + 1 ≤ padded.length := by
    show places + 1 ≤ (_ ++ _ : List Char).length
    rw [List.length_append, List.length_replicate]
    omega
  have hfraction : (padded.drop (padded.length - places)).length = places := by
    rw [List.length_drop]
    omega
  have hwhole : (padded.take (padded.length - places)).length = padded.length - places := by
    rw [List.length_take]
    omega
  refine ⟨⟨rfl, ⟨?_, ?_, ?_⟩, ?_, ?_⟩, hfraction⟩
  · exact fun c hc => isDigit_of_mem_paddedDigits (List.mem_of_mem_take hc)
  · refine List.ne_nil_of_length_pos ?_
    omega
  · intro c t heq
    have hpadded := List.take_append_drop (padded.length - places) padded
    rw [heq, List.cons_append] at hpadded
    have hsize := length_of_paddedDigits h0 hpadded.symm
    rw [List.length_append, hfraction, List.length_cons] at hsize
    omega
  · exact fun c hc => isDigit_of_mem_paddedDigits (List.mem_of_mem_drop hc)
  · refine List.ne_nil_of_length_pos ?_
    omega

/-- **The plain layout** of a decimal: digits with a point that count its units. -/
theorem positional_pointed {d : Decimal} {places : Nat} (h0 : 0 < d.digits)
    (hlow : -(places : Int) ≤ d.exponent) (hplaces : 0 < places) :
    ∃ whole fraction, Pointed (Json.numberStyle.positional d) whole fraction ∧
      fraction.length ≤ places ∧
      digitsValue (whole ++ fraction) * 10 ^ places = d.units places * 10 ^ fraction.length := by
  unfold DecimalStyle.positional
  dsimp only
  split
  · next hwhole =>
    refine ⟨_, _, pointed_whole h0 d.exponent.toNat, hplaces, ?_⟩
    -- the zero after the point is one place of the fraction
    have hpower : (d.exponent + places).toNat = d.exponent.toNat + places := by omega
    rw [digitsValue_append, digitsValue_append, digitsValue_toDigits, digitsValue_zeros,
      List.length_replicate, Decimal.units, hpower, pow_add]
    show (_ * 10 ^ 1 + digitsValue (List.replicate 1 '0')) * _ = _ * 10 ^ 1
    rw [digitsValue_zeros]
    ring
  · next hfraction =>
    have hpower : places = (d.exponent + places).toNat + (-d.exponent).toNat := by omega
    obtain ⟨hpointed, hlength⟩ :=
      pointed_split h0 (show 0 < (-d.exponent).toNat by omega)
    refine ⟨_, _, hpointed, by omega, ?_⟩
    rw [List.take_append_drop, digitsValue_paddedDigits, hlength, Decimal.units, Nat.mul_assoc,
      ← pow_add, ← hpower]

/-! ## Numbers that survive -/

/-- **A decimal of few units** is laid out without an exponent. -/
theorem layOut_eq_positional {d : Decimal} {places : Nat} (h0 : 0 < d.digits)
    (hlow : -(places : Int) ≤ d.exponent) (hplaces : places ≤ 3)
    (hunits : d.units places < 10 ^ 14) :
    Json.numberStyle.layOut d = Json.numberStyle.positional d := by
  have hlength : 0 < (Nat.toDigits 10 d.digits).length :=
    List.length_pos_iff.mpr Nat.toDigits_ne_nil
  have hfew : d.exponent + (Nat.toDigits 10 d.digits).length - 1 ≤ 15 := by
    by_contra hmany
    -- with a digit more in front of the point there would be more units
    have hdigits : 10 ^ ((Nat.toDigits 10 d.digits).length - 1) ≤ d.digits := by
      rcases Nat.eq_zero_or_pos ((Nat.toDigits 10 d.digits).length - 1) with hone | hpos
      · rw [hone]
        exact h0
      · by_contra hlt
        have := (Nat.length_toDigits_le_iff (b := 10) (by decide) hpos).mpr (Nat.not_le.mp hlt)
        omega
    have hlarge : 10 ^ 14 ≤ d.units places :=
      calc 10 ^ 14
          ≤ 10 ^ ((Nat.toDigits 10 d.digits).length - 1 + (d.exponent + places).toNat) :=
            Nat.pow_le_pow_right (by decide) (by omega)
        _ = 10 ^ ((Nat.toDigits 10 d.digits).length - 1) * 10 ^ (d.exponent + places).toNat :=
            pow_add _ _ _
        _ ≤ d.units places := Nat.mul_le_mul_right _ hdigits
    exact absurd hunits (Nat.not_lt.mpr hlarge)
  unfold DecimalStyle.layOut
  show (if -5 ≤ d.exponent + (Nat.toDigits 10 d.digits).length - 1 ∧
    d.exponent + (Nat.toDigits 10 d.digits).length - 1 ≤ 15 then _ else _) = _
  rw [if_pos (by omega)]

open Binary64 in
/-- **The plain text of a decimal is read as its rounded quotient.** -/
theorem readNumeral_positional {d : Decimal} {places : Nat} (h0 : 0 < d.digits)
    (hlow : -(places : Int) ≤ d.exponent) (hplaces : 0 < places ∧ places ≤ 3)
    (hunits : d.units places < 10 ^ 14) :
    readNumeral (Json.numberStyle.positional d)
      = (.scalar (.ok (.number (.real (round false (d.units places * one) (10 ^ places))))) none,
        []) := by
  obtain ⟨whole, fraction, hpointed, hlength, hvalue⟩ := positional_pointed h0 hlow hplaces.1
  have hpower : 0 < 10 ^ places := Nat.pow_pos (by decide)
  have hsmall : digitsValue (whole ++ fraction) < 2 ^ 53 := by
    have hle : digitsValue (whole ++ fraction) * 10 ^ places ≤ d.units places * 10 ^ places := by
      rw [hvalue]
      exact Nat.mul_le_mul_left _ (Nat.pow_le_pow_right (by decide) hlength)
    have := Nat.le_of_mul_le_mul_right hle hpower
    omega
  have hreal : Numeral.toReal ⟨false, whole, fraction, none⟩ = _ :=
    Numeral.toReal_of_digits hsmall hpointed.fraction_ne (by omega)
  have hsame : round false (digitsValue (whole ++ fraction) * one) (10 ^ fraction.length)
      = round false (d.units places * one) (10 ^ places) := by
    refine round_congr false (Nat.pow_pos (by decide)) hpower ?_
    rw [Nat.mul_right_comm, hvalue, Nat.mul_right_comm]
  have hwhole : Numeral.isWhole ⟨false, whole, fraction, none⟩ = false := by
    unfold Numeral.isWhole
    rw [Bool.and_eq_false_iff]
    exact .inl (List.isEmpty_eq_false_iff.mpr hpointed.fraction_ne)
  have hread := hpointed.readMagnitude false
  rw [numeralReading_of_toReal hwhole hreal, hsame, if_neg Bool.false_ne_true] at hread
  exact readNumeral_of_readMagnitude hread (unbroken_scalar _)

namespace Binary64

/-- A number survives if its text is a numeral that is worth the number. -/
theorem survives_of_readNumeral {x : Binary64} (hx : x.isFinite = true)
    (h : readNumeral (Json.realText x) = (.scalar (.ok (.number (.real x))) none, [])) :
    x.Survives := by
  have hencode : Codec.binary64.encode x = .number (.real x) := if_pos hx
  have hreading : (Json.number (.real x)).reading = .scalar (.ok (.number (.real x))) none :=
    congrArg Prod.fst h
  refine Codec.Restores.ofText ⟨?_, fun room => ?_⟩
  · rw [hencode]
    exact ⟨_, h⟩
  · rw [hencode, hreading]
    rfl

/-- **Numbers of few decimal places survive.** -/
theorem survives_of_places {places n : Nat} (hplaces : Reached places) (hn : n < 2 ^ 30) :
    (round false (n * one) (10 ^ places)).Survives := by
  rcases Nat.eq_zero_or_pos n with rfl | h0
  · have hzero : round false (0 * one) (10 ^ places) = zero false := by
      refine (round_congr false (Nat.pow_pos (by decide)) Nat.one_pos ?_).trans
        (show round false 0 1 = zero false by decide)
      rw [Nat.zero_mul, Nat.zero_mul, Nat.zero_mul]
    rw [hzero]
    decide +kernel
  · obtain ⟨hunsigned, hmagnitude⟩ := unsigned_of_places hplaces hn
    have hpos := magnitude_pos hplaces h0 hn
    rw [← hmagnitude] at hpos
    have hshortest := shortest_places hplaces h0 hn rfl Json.numberStyle.tie
    generalize round false (n * one) (10 ^ places) = x at *
    obtain ⟨hlow, hsome, hfew, hx⟩ := hshortest
    have hdigits : 0 < (x.shortest Json.numberStyle.tie).digits :=
      Nat.pos_of_mul_pos_right hsome
    refine survives_of_readNumeral hunsigned.1 ?_
    rw [Json.realText_eq hunsigned.1, hunsigned.2, if_neg Bool.false_ne_true, List.nil_append,
      if_neg hpos.ne', layOut_eq_positional hdigits hlow hplaces.bounds.2 hfew,
      readNumeral_positional hdigits hlow hplaces.bounds hfew, ← hx]

theorem HasPlaces.survives {places least greatest : Nat} {x : Binary64}
    (h : HasPlaces places least greatest x) (hplaces : Reached places)
    (hfactor : placesFactor places = ofNat (10 ^ places)) (hgreatest : greatest < 2 ^ 30) :
    x.Survives := by
  obtain ⟨n, -, hn, rfl⟩ := h
  have hpower : 10 ^ places < 2 ^ 53 :=
    (Nat.pow_le_pow_right (by decide) hplaces.bounds.2).trans_lt (by decide)
  rw [ofPlaces, hfactor, ofNat_div_ofNat (by omega) hpower (Nat.pow_pos (by decide))]
  exact survives_of_places hplaces (by omega)

/-- Numbers of one decimal place. -/
theorem HasPlaces.survives_one {least greatest : Nat} {x : Binary64}
    (h : HasPlaces 1 least greatest x) (hgreatest : greatest < 2 ^ 30) : x.Survives :=
  HasPlaces.survives h reached_one placesFactor_one hgreatest

/-- Numbers of two decimal places. -/
theorem HasPlaces.survives_two {least greatest : Nat} {x : Binary64}
    (h : HasPlaces 2 least greatest x) (hgreatest : greatest < 2 ^ 30) : x.Survives :=
  HasPlaces.survives h reached_two placesFactor_two hgreatest

end Binary64

end Academy
