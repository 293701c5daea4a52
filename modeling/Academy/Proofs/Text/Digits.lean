import Academy.Text.Digits
import Mathlib.Algebra.Order.Ring.Nat
import Mathlib.Tactic.Ring

/-!
# Numerals are read as what they write

A number is written by its digits, with zeros in front where a width is
given, and read by going on from digit to digit. That reading takes the
digits back is all there is to show, together with where a run of digits
ends: at the first character that is no digit, whatever comes after it.
-/

namespace Academy

/-! ## Decimal digits -/

theorem isDigit_of_mem_toDigits {n : Nat} {c : Char} (h : c ∈ Nat.toDigits 10 n) :
    c.isDigit = true :=
  Nat.isDigit_of_mem_toDigits (by decide) (Nat.le_refl 10) h

/-- No number is written with a zero in front. -/
theorem toDigits_ne_zero_cons {n : Nat} (hn : 0 < n) (s : List Char) :
    Nat.toDigits 10 n ≠ '0' :: s := by
  induction n using Nat.strongRecOn generalizing s with
  | ind n ih =>
    rw [Nat.toDigits_eq_if (by decide)]
    split
    · intro h
      exact hn.ne' (Nat.digitChar_eq_zero.mp (List.cons.inj h).1)
    · next hge =>
      intro h
      rcases hleading : Nat.toDigits 10 (n / 10) with _ | ⟨c, digits⟩
      · exact Nat.toDigits_ne_nil hleading
      · rw [hleading, List.cons_append] at h
        obtain rfl := (List.cons.inj h).1
        exact ih (n / 10) (by omega) (by omega) digits hleading

theorem digitsValue_eq (s : List Char) : digitsValue s = Nat.ofDigitChars 10 s 0 := rfl

@[simp] theorem digitsValue_toDigits (n : Nat) : digitsValue (Nat.toDigits 10 n) = n :=
  Nat.ofDigitChars_ten_toDigits

theorem digitsValue_append (s t : List Char) :
    digitsValue (s ++ t) = digitsValue s * 10 ^ t.length + digitsValue t := by
  rw [digitsValue_eq, Nat.ofDigitChars_append, Nat.ofDigitChars_eq_ofDigitChars_zero,
    Nat.mul_comm]
  rfl

@[simp] theorem digitsValue_zeros (n : Nat) : digitsValue (List.replicate n '0') = 0 := by
  rw [digitsValue_eq, Nat.ofDigitChars_replicate_zero, Nat.mul_zero]

/-- Zeros in front do not matter. -/
@[simp] theorem digitsValue_zeros_append (n : Nat) (s : List Char) :
    digitsValue (List.replicate n '0' ++ s) = digitsValue s := by
  simp [digitsValue_append]

theorem isDigit_of_mem_zeros {n : Nat} {c : Char} (h : c ∈ List.replicate n '0') :
    c.isDigit = true := by
  rw [List.eq_of_mem_replicate h]
  rfl

theorem signed?_eq_some_iff {n : Int} : signed? n = some n ↔ -2 ^ 63 ≤ n ∧ n < 2 ^ 63 := by
  have hmax : Int64.maxValue.toInt = 2 ^ 63 - 1 := rfl
  have hmin : Int64.minValue.toInt = -2 ^ 63 := rfl
  unfold signed?
  rw [hmax, hmin]
  split
  · next h => exact iff_of_true rfl (by omega)
  · next h => exact iff_of_false nofun (by omega)

@[simp] theorem digitsOnly?_toDigits (n : Nat) : digitsOnly? (Nat.toDigits 10 n) = some n := by
  have hdigits : ∀ c ∈ Nat.toDigits 10 n, c.isDigit = true := fun c => isDigit_of_mem_toDigits
  unfold digitsOnly?
  rw [if_pos ⟨Nat.toDigits_ne_nil, List.all_eq_true.mpr hdigits⟩, digitsValue_toDigits]

/-- Digits have no sign in front. -/
theorem splitSign_digits {s : List Char} (h : ∀ c ∈ s, c.isDigit = true) :
    splitSign s = (false, s) := by
  unfold splitSign
  split
  · exact nomatch h '-' List.mem_cons_self
  · exact nomatch h '+' List.mem_cons_self
  · rfl

@[simp] theorem intOfText?_toDigits (n : Nat) : intOfText? (Nat.toDigits 10 n) = signed? n := by
  unfold intOfText?
  dsimp only
  rw [splitSign_digits fun c => isDigit_of_mem_toDigits, digitsOnly?_toDigits]
  rfl

/-- **A whole number is read as it is written**, if it fits 64 bits. -/
theorem intOfText?_toString (n : Int) : intOfText? (toString n).toList = signed? n := by
  rw [Int.toString_eq_repr, Int.repr_eq_if]
  split
  · next h => simp [Nat.toList_repr, Int.toNat_of_nonneg h]
  · next h =>
    rw [String.toList_append, Nat.toList_repr]
    show (digitsOnly? (Nat.toDigits 10 (-n).toNat)).bind (fun m => signed? (-(m : Int))) = _
    have habs : ((-n).toNat : Int) = -n := Int.toNat_of_nonneg (by omega)
    simp [habs]

theorem digitsOnly?_eq_some_iff {s : List Char} {n : Nat} :
    digitsOnly? s = some n ↔ s ≠ [] ∧ (∀ c ∈ s, c.isDigit = true) ∧ digitsValue s = n := by
  unfold digitsOnly?
  split
  · next h =>
    rw [Option.some_inj]
    exact ⟨fun hn => ⟨h.1, List.all_eq_true.mp h.2, hn⟩, fun hn => hn.2.2⟩
  · next h => exact ⟨nofun, fun hn => absurd ⟨hn.1, List.all_eq_true.mpr hn.2.1⟩ h⟩

/-- **Which texts are natural numbers of 64 bits**: digits after an optional plus. -/
theorem natOfText?_eq_some_iff {s : List Char} {n : Nat} :
    natOfText? s = some n ↔ ∃ digits, (s = digits ∨ s = '+' :: digits) ∧ digits ≠ [] ∧
      (∀ c ∈ digits, c.isDigit = true) ∧ digitsValue digits = n ∧ n < 2 ^ 64 := by
  have hbound (digits : List Char) : ((digitsOnly? digits).bind fun n =>
      if n < UInt64.size then some n else none) = some n ↔
        digits ≠ [] ∧ (∀ c ∈ digits, c.isDigit = true) ∧ digitsValue digits = n ∧ n < 2 ^ 64 := by
    rw [Option.bind_eq_some_iff]
    constructor
    · rintro ⟨m, hm, hlt⟩
      split at hlt
      · next h =>
        obtain rfl := Option.some.inj hlt
        obtain ⟨hne, hdigits, hvalue⟩ := digitsOnly?_eq_some_iff.mp hm
        exact ⟨hne, hdigits, hvalue, h⟩
      · exact nomatch hlt
    · rintro ⟨hne, hdigits, hvalue, hlt⟩
      exact ⟨n, digitsOnly?_eq_some_iff.mpr ⟨hne, hdigits, hvalue⟩, if_pos hlt⟩
  by_cases hplus : ∃ digits, s = '+' :: digits
  · obtain ⟨digits, rfl⟩ := hplus
    refine (hbound digits).trans ⟨fun h => ⟨digits, .inr rfl, h⟩, ?_⟩
    rintro ⟨other, rfl | hother, h⟩
    · exact nomatch h.2.1 '+' List.mem_cons_self
    · exact (List.cons.inj hother).2 ▸ h
  · have hsame : natOfText? s = (digitsOnly? s).bind fun n =>
        if n < UInt64.size then some n else none := by
      unfold natOfText?
      split
      · next digits => exact absurd ⟨digits, rfl⟩ hplus
      · rfl
    rw [hsame, hbound s]
    refine ⟨fun h => ⟨s, .inl rfl, h⟩, ?_⟩
    rintro ⟨digits, rfl | rfl, h⟩
    · exact h
    · exact absurd ⟨digits, rfl⟩ hplus

/-- **A number is read as it is written**, if it fits 64 bits. -/
theorem natOfText?_toString {n : Nat} (h : n < 2 ^ 64) :
    natOfText? (toString n).toList = some n :=
  natOfText?_eq_some_iff.mpr ⟨Nat.toDigits 10 n, .inl Nat.toList_repr, Nat.toDigits_ne_nil,
    fun _ => isDigit_of_mem_toDigits, digitsValue_toDigits n, h⟩

/-- A text is its leading digits and what comes after them. -/
theorem splitDigits_spec (s : List Char) :
    (∀ c ∈ (splitDigits s).1, c.isDigit = true) ∧ s = (splitDigits s).1 ++ (splitDigits s).2 :=
  ⟨List.all_eq_true.mp List.all_takeWhile, List.takeWhile_append_dropWhile.symm⟩

/-- A text that does not go on with a digit. -/
def NoDigitFirst (s : List Char) : Prop :=
  ∀ c ∈ s.head?, c.isDigit = false

/-- **A run of digits ends** where no digit follows. -/
theorem splitDigits_append {digits s : List Char} (hdigits : ∀ c ∈ digits, c.isDigit = true)
    (hs : NoDigitFirst s) : splitDigits (digits ++ s) = (digits, s) := by
  have hstop : s.takeWhile Char.isDigit = [] ∧ s.dropWhile Char.isDigit = s := by
    cases s with
    | nil => exact ⟨rfl, rfl⟩
    | cons c s =>
      have hc : ¬ c.isDigit = true := Bool.eq_false_iff.mp (hs c rfl)
      exact ⟨List.takeWhile_cons_of_neg hc, List.dropWhile_cons_of_neg hc⟩
  unfold splitDigits
  rw [List.takeWhile_append_of_pos hdigits, List.dropWhile_append_of_pos hdigits, hstop.1, hstop.2,
    List.append_nil]

theorem splitDigits_of_digits {digits : List Char} (h : ∀ c ∈ digits, c.isDigit = true) :
    splitDigits digits = (digits, []) := by
  have hsplit := splitDigits_append (s := []) h nofun
  rwa [List.append_nil] at hsplit

/-- What follows a text does not change the digits that it begins with, unless
it consists of digits. -/
theorem splitDigits_append_of_ne {s t : List Char} (ht : NoDigitFirst t) :
    splitDigits (s ++ t) = ((splitDigits s).1, (splitDigits s).2 ++ t) := by
  obtain ⟨hdigits, hs⟩ := splitDigits_spec s
  have hsplit : s ++ t = (splitDigits s).1 ++ ((splitDigits s).2 ++ t) := by
    rw [← List.append_assoc, ← hs]
  rw [hsplit, splitDigits_append hdigits]
  intro c hc
  rcases hrest : (splitDigits s).2 with _ | ⟨d, rest⟩
  · rw [hrest] at hc
    exact ht c hc
  · rw [hrest] at hc
    obtain rfl : d = c := Option.some.inj hc
    have hhead := List.head?_dropWhile_not Char.isDigit s
    rw [show s.dropWhile Char.isDigit = d :: rest from hrest] at hhead
    simpa using hhead

/-! ## Hexadecimal digits -/

theorem hexDigitValue?_hexDigit {d : Nat} (h : d < 16) : hexDigitValue? (hexDigit d) = some d := by
  have hall : ∀ d < 16, hexDigitValue? (hexDigit d) = some d := by decide
  exact hall d h

theorem hexValueFrom?_append (m : Nat) (s t : List Char) :
    hexValueFrom? m (s ++ t) = (hexValueFrom? m s).bind fun n => hexValueFrom? n t := by
  induction s generalizing m with
  | nil => rfl
  | cons c s ih =>
    rw [List.cons_append, hexValueFrom?, hexValueFrom?]
    cases hexDigitValue? c with
    | none => rfl
    | some d => exact ih _

@[simp] theorem length_hexDigits (width n : Nat) : (hexDigits width n).length = width := by
  induction width generalizing n with
  | zero => rfl
  | succ width ih => rw [hexDigits, List.length_append, ih, List.length_singleton]

theorem hexValueFrom?_hexDigits {width n : Nat} (m : Nat) (h : n < 16 ^ width) :
    hexValueFrom? m (hexDigits width n) = some (m * 16 ^ width + n) := by
  induction width generalizing n with
  | zero =>
    obtain rfl : n = 0 := by omega
    simp [hexDigits, hexValueFrom?]
  | succ width ih =>
    have hquotient : n / 16 < 16 ^ width := by
      rw [Nat.div_lt_iff_lt_mul (by decide), ← pow_succ]
      exact h
    rw [hexDigits, hexValueFrom?_append, ih hquotient, Option.bind_some, hexValueFrom?,
      hexDigitValue?_hexDigit (Nat.mod_lt n (by decide)), Option.bind_some, hexValueFrom?,
      Option.some_inj]
    have hn := Nat.div_add_mod n 16
    calc 16 * (m * 16 ^ width + n / 16) + n % 16
        = m * 16 ^ (width + 1) + (16 * (n / 16) + n % 16) := by ring
      _ = m * 16 ^ (width + 1) + n := by rw [hn]

/-- **Hexadecimal digits are read as what they write.** -/
theorem hexValue?_hexDigits {width n : Nat} (h : n < 16 ^ width) :
    hexValue? (hexDigits width n) = some n := by
  rw [hexValue?, hexValueFrom?_hexDigits 0 h, Nat.zero_mul, Nat.zero_add]

end Academy
