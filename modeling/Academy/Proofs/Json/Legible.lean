import Academy.Dataset
import Academy.Proofs.Json.Extended
import Academy.Proofs.Json.Places

/-!
# Whatever is written can be read on

A number of many digits need not survive being written, and an instant
need not either. But what is written for them is JSON all the same, and
reading goes on after it: a number is laid out as a numeral, with a point
or with an exponent, and everything else has no condition at all. So the
text of a record is read to its end whatever is in the record, and what
becomes of each field is a matter of that field alone.

That a numeral is laid out needs one thing of its digits, that they are
not zero. They are not, since a zero reads back as a zero.
-/

namespace Academy

/-! ## The digits of a number -/

theorem Decimal.strip_digits_pos (room : Nat) {d : Decimal} (h : 0 < d.digits) :
    0 < (d.strip room).digits := by
  induction room generalizing d with
  | zero => exact h
  | succ room ih =>
    unfold Decimal.strip
    split
    · exact ih (show 0 < d.digits / 10 by omega)
    · exact h

/-- **A number that is not zero has digits.** -/
theorem Binary64.shortest_digits_pos {x : Binary64} (hx : x.magnitude ≠ 0) (tie : Tie) :
    0 < (x.shortest tie).digits := by
  unfold shortest
  refine Decimal.strip_digits_pos 800 ?_
  generalize hfound : List.findSome? _ _ = found
  cases found with
  | none =>
    have hpower : ∀ k, 0 < Nat.pow 5 k := fun k => Nat.pow_pos (by decide)
    exact Nat.mul_pos (Nat.pos_of_ne_zero hx) (hpower 1074)
  | some d =>
    obtain ⟨places, -, hplaces⟩ := List.exists_of_findSome?_eq_some hfound
    obtain ⟨-, hread, -⟩ := readBackOn_spec hplaces
    refine Nat.pos_of_ne_zero fun hzero => hx ?_
    rw [Option.getD_some] at hzero
    rw [← hread, hzero]
    rfl

/-! ## How a number is laid out -/

/-- **The layout with an exponent**: a digit, the others after a point if there
are any, and the exponent with its sign. -/
theorem readMagnitude_scientific (d : Decimal) (negative : Bool) :
    ∃ n, readMagnitude negative (DecimalStyle.scientific d) = (numeralReading n, []) := by
  unfold DecimalStyle.scientific
  dsimp only
  generalize d.exponent + (Nat.toDigits 10 d.digits).length - 1 = place
  obtain ⟨down, hsign⟩ : ∃ down, Numeral.SignText down [if place < 0 then '-' else '+'] := by
    split
    · exact ⟨_, .minus⟩
    · exact ⟨_, .plus⟩
  have he : Numeral.ExponentText _ ('e' :: ([if place < 0 then '-' else '+'] ++ _)) :=
    .present (.inl rfl) hsign (fun c => isDigit_of_mem_toDigits (n := place.natAbs))
      Nat.toDigits_ne_nil
  have hdigits : ∀ c ∈ Nat.toDigits 10 d.digits, c.isDigit = true :=
    fun c => isDigit_of_mem_toDigits
  rcases hsome : Nat.toDigits 10 d.digits with _ | ⟨first, fraction⟩
  · exact absurd hsome Nat.toDigits_ne_nil
  rw [hsome, List.forall_mem_cons] at hdigits
  have hleading : Leading [first] :=
    ⟨List.forall_mem_singleton.mpr hdigits.1, List.cons_ne_nil _ _, fun _ _ => nofun⟩
  simp only [List.take_succ_cons, List.take_zero, List.drop_succ_cons, List.drop_zero]
  cases fraction with
  | nil => exact ⟨_, readMagnitude_text hleading .absent he⟩
  | cons second fraction =>
    exact ⟨_, readMagnitude_text hleading (.present hdigits.2 (List.cons_ne_nil _ _)) he⟩

/-- **A decimal is laid out as a numeral.** -/
theorem readMagnitude_layOut {d : Decimal} (h0 : 0 < d.digits) (negative : Bool) :
    ∃ n, readMagnitude negative (Json.numberStyle.layOut d) = (numeralReading n, []) := by
  rcases Json.layOut_eq d with heq | heq
  · have hlow : -(((-d.exponent).toNat + 1 : Nat) : Int) ≤ d.exponent := by omega
    obtain ⟨whole, fraction, hpointed, -⟩ := positional_pointed h0 hlow (Nat.succ_pos _)
    exact ⟨_, heq ▸ hpointed.readMagnitude negative⟩
  · rw [heq]
    exact readMagnitude_scientific d negative

namespace Json

/-- **Every finite number is written as a numeral.** -/
theorem real_readable {x : Binary64} (hx : x.isFinite = true) :
    (Json.number (.real x)).Readable := by
  have hmagnitude : ∀ negative, ∃ n, readMagnitude negative (if x.magnitude = 0
      then numberStyle.positional ⟨0, 0⟩ else numberStyle.layOut (x.shortest numberStyle.tie))
        = (numeralReading n, []) := by
    intro negative
    by_cases h0 : x.magnitude = 0
    · rw [if_pos h0]
      cases negative <;> exact ⟨_, rfl⟩
    · rw [if_neg h0]
      exact readMagnitude_layOut (Binary64.shortest_digits_pos h0 numberStyle.tie) negative
  obtain ⟨n, hread⟩ := hmagnitude x.isNegative
  obtain ⟨used, hused⟩ := numeralReading_eq n
  refine ⟨used, ?_⟩
  show readNumeral (realText x) = _
  rw [hused] at hread
  rw [realText_eq hx]
  cases hsign : x.isNegative with
  | true =>
    rw [hsign] at hread
    exact hread
  | false =>
    rw [hsign] at hread
    exact readNumeral_of_readMagnitude hread (unbroken_scalar used)

end Json

/-! ## What codecs write -/

namespace Codec

variable {α β : Type} {c : Codec α} {name : String} {fields : List Field} {fills : Bool}

/-- **Whatever a codec writes can be read.** -/
def Legible (c : Codec α) : Prop :=
  ∀ a, (c.encode a).Readable

theorem legible_correspond {forth : α → β} {back : β → α} (hc : c.Legible) :
    (c.correspond forth back).Legible :=
  fun b => hc (back b)

theorem legible_string : string.Legible :=
  fun _ => trivial

theorem legible_uint8 : uint8.Legible :=
  fun n => (restores_uint8 n).readable

theorem legible_uint32 : uint32.Legible :=
  fun n => (restores_uint32 n).readable

theorem legible_binary64 : binary64.Legible := by
  intro x
  show (if x.isFinite then Json.number (.real x) else .null).Readable
  split
  · next hx => exact Json.real_readable hx
  · trivial

theorem legible_nullable (hc : c.Legible) : c.nullable.Legible
  | none => trivial
  | some a => hc a

theorem legible_oneOf (words : List (String × α)) (wordOf : α → String) :
    (oneOf words wordOf).Legible :=
  fun _ => trivial

theorem legible_list (hc : c.Legible) : c.list.Legible := by
  intro as
  refine Json.itemsReadable_iff.mpr fun j hj => ?_
  obtain ⟨a, -, rfl⟩ := List.mem_map.mp hj
  exact hc a

theorem legible_record (h : ∀ f ∈ fields, f.codec.Legible) :
    (record name fields fills).Legible := by
  intro row
  show Json.MembersReadable (Field.encodeRow fields row)
  induction fields with
  | nil => trivial
  | cons f fields ih =>
    obtain ⟨value, row⟩ := row
    obtain ⟨hf, hfields⟩ := List.forall_mem_cons.mp h
    exact ⟨hf value, ih hfields row⟩

theorem legible_identifier : identifier.Legible :=
  fun i => (restores_identifier i).readable

theorem legible_instant : instant.Legible :=
  fun _ => ⟨trivial, trivial⟩

end Codec

end Academy
