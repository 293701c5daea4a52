import Mathlib.Data.List.Induction
import Mathlib.Data.List.Lex
import Mathlib.Data.Set.Function
import Academy.Proofs.Text.Digits

/-!
# Numbers of a fixed width

Numbers that are written with as many digits each, the most significant
one first, stand in the order of their texts, and every text of as many
digits is that of a number. What the digits look like matters as far as
they have to stand in the order of their values. So this is proved once,
and holds of hexadecimal digits as it does of bytes.
-/

namespace Academy

section

variable {α : Type} [LT α]

/-- Of two texts of one length, what follows does not change the order. -/
theorem append_lt_append_of_lt {s t : List α} (hlength : s.length = t.length) (h : s < t)
    (s' t' : List α) : s ++ s' < t ++ t' := by
  induction s generalizing t with
  | nil =>
    obtain rfl : t = [] := List.length_eq_zero_iff.mp hlength.symm
    exact absurd h (List.not_lt_nil [])
  | cons a s ih =>
    cases t with
    | nil => exact nomatch hlength
    | cons b t =>
      rcases List.cons_lt_cons_iff.mp h with hab | ⟨rfl, hst⟩
      · exact List.cons_lt_cons_iff.mpr (.inl hab)
      · exact List.cons_lt_cons_iff.mpr (.inr ⟨rfl, ih (Nat.succ.inj hlength) hst⟩)

/-- **A way to write numbers with a fixed number of digits** to some base. -/
structure FixedWidth (base : Nat) (digit : Nat → α) (write : (width : Nat) → Nat → List α) :
    Prop where
  /-- There are digits. -/
  base_pos : 0 < base
  /-- Without digits nothing is written. -/
  zero : ∀ n, write 0 n = []
  /-- The last digit is the remainder, and those before it write the quotient. -/
  succ : ∀ width n, write (width + 1) n = write width (n / base) ++ [digit (n % base)]
  /-- Digits stand in the order of their values. -/
  digit_lt : ∀ m n, m < n → n < base → digit m < digit n

namespace FixedWidth

variable {base : Nat} {digit : Nat → α} {write : (width : Nat) → Nat → List α} {width m n : Nat}

theorem length (h : FixedWidth base digit write) (width n : Nat) :
    (write width n).length = width := by
  induction width generalizing n with
  | zero => rw [h.zero, List.length_nil]
  | succ width ih => rw [h.succ, List.length_append, ih, List.length_singleton]

theorem quotient_lt (h : FixedWidth base digit write) (hn : n < base ^ (width + 1)) :
    n / base < base ^ width := by
  rwa [Nat.div_lt_iff_lt_mul h.base_pos, ← Nat.pow_succ]

/-- The digits before the last decide, and the last one if they are alike. -/
theorem write_lt_write (h : FixedWidth base digit write) (hmn : m < n) (hn : n < base ^ width) :
    write width m < write width n := by
  induction width generalizing m n with
  | zero =>
    rw [Nat.pow_zero] at hn
    omega
  | succ width ih =>
    have hm := Nat.div_add_mod m base
    have hn' := Nat.div_add_mod n base
    rw [h.succ, h.succ]
    rcases Nat.lt_or_ge (m / base) (n / base) with hlt | hge
    · refine append_lt_append_of_lt ?_ (ih hlt (h.quotient_lt hn)) _ _
      rw [h.length, h.length]
    · have heq : m / base = n / base := Nat.le_antisymm (Nat.div_le_div_right hmn.le) hge
      have hlast : m % base < n % base := by
        rw [heq] at hm
        omega
      rw [heq]
      refine List.append_left_lt (List.cons_lt_cons_iff.mpr (.inl ?_))
      exact h.digit_lt _ _ hlast (Nat.mod_lt n h.base_pos)

variable [Std.Asymm (α := α) (· < ·)]

/-- **Numbers stand in the order of their texts.** -/
theorem write_lt_write_iff (h : FixedWidth base digit write) (hm : m < base ^ width)
    (hn : n < base ^ width) : write width m < write width n ↔ m < n := by
  refine ⟨fun hlt => ?_, fun hmn => h.write_lt_write hmn hn⟩
  rcases Nat.lt_trichotomy m n with hmn | rfl | hnm
  · exact hmn
  · exact absurd hlt (List.lt_asymm hlt)
  · exact absurd (h.write_lt_write hnm hm) (List.lt_asymm hlt)

theorem write_inj (h : FixedWidth base digit write) (hm : m < base ^ width)
    (hn : n < base ^ width) (heq : write width m = write width n) : m = n := by
  rcases Nat.lt_trichotomy m n with hmn | rfl | hnm
  · have hlt := h.write_lt_write hmn hn
    rw [heq] at hlt
    exact absurd hlt (List.lt_asymm hlt)
  · rfl
  · have hlt := h.write_lt_write hnm hm
    rw [heq] at hlt
    exact absurd hlt (List.lt_asymm hlt)

omit [Std.Asymm (α := α) (· < ·)] in
theorem mem_write (h : FixedWidth base digit write) {a : α} (ha : a ∈ write width n) :
    ∃ d < base, digit d = a := by
  induction width generalizing n with
  | zero =>
    rw [h.zero] at ha
    exact nomatch ha
  | succ width ih =>
    rw [h.succ, List.mem_append, List.mem_singleton] at ha
    rcases ha with ha | rfl
    · exact ih ha
    · exact ⟨n % base, Nat.mod_lt n h.base_pos, rfl⟩

omit [Std.Asymm (α := α) (· < ·)] in
theorem exists_write (h : FixedWidth base digit write) {s : List α}
    (hs : ∀ a ∈ s, ∃ d < base, digit d = a) : ∃ n < base ^ s.length, write s.length n = s := by
  induction s using List.reverseRecOn with
  | nil => exact ⟨0, Nat.one_pos, h.zero 0⟩
  | append_singleton s a ih =>
    obtain ⟨d, hd, rfl⟩ := hs a (List.mem_append_right s List.mem_cons_self)
    obtain ⟨n, hn, hwrite⟩ := ih fun a ha => hs a (List.mem_append_left _ ha)
    rw [List.length_append, List.length_singleton]
    refine ⟨base * n + d, ?_, ?_⟩
    · calc base * n + d < base * (n + 1) := by rw [Nat.mul_succ]; omega
        _ ≤ base * base ^ s.length := Nat.mul_le_mul_left base hn
        _ = base ^ (s.length + 1) := (Nat.pow_succ').symm
    · rw [h.succ, Nat.mul_add_div h.base_pos, Nat.div_eq_of_lt hd, Nat.add_zero, hwrite,
        Nat.mul_add_mod, Nat.mod_eq_of_lt hd]

/-- **Every text of digits is that of one number.** -/
theorem bijOn (h : FixedWidth base digit write) (width : Nat) :
    Set.BijOn (write width) {n | n < base ^ width}
      {s | s.length = width ∧ ∀ a ∈ s, ∃ d < base, digit d = a} := by
  refine ⟨fun n _ => ⟨h.length width n, fun a => h.mem_write⟩,
    fun m hm n hn => h.write_inj hm hn, ?_⟩
  rintro s ⟨rfl, hs⟩
  exact h.exists_write hs

end FixedWidth

end

/-! ## Hexadecimal digits -/

/-- Hexadecimal digits stand in the order of their values. -/
theorem fixedWidth_hexDigits : FixedWidth 16 hexDigit hexDigits where
  base_pos := by decide
  zero _ := rfl
  succ _ _ := rfl
  digit_lt m n hmn hn := by
    have hall : ∀ n < 16, ∀ m < n, hexDigit m < hexDigit n := by decide
    exact hall n hn m hmn

end Academy
