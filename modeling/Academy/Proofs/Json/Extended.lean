import Academy.Json.Extended
import Academy.Proofs.Calendar.Text
import Academy.Proofs.Json.Codec

/-!
# Tagged values are restored

An identifier is read as it was written, whatever its bytes are, and an
instant to the millisecond, if its year has four digits. Both are objects
of one member, so what is to be proved is what their texts say.
-/

namespace Academy

@[simp] theorem Identifier.ofText?_hex (i : Identifier) : ofText? i.hex = some i := by
  have hbits : i.bits.toNat < 16 ^ 24 := i.bits.isLt
  unfold ofText? hex
  rw [if_pos (length_hexDigits _ _), hexValue?_hexDigits hbits, Option.map_some,
    BitVec.ofNat_toNat, BitVec.setWidth_eq]

@[simp] theorem Identifier.parse_text (i : Identifier) : parse i.text = .ok i := by
  unfold parse text
  rw [String.toList_ofList, ofText?_hex]

namespace Codec

/-- A record of one member restores what the member restores. -/
theorem restores_tagged {α : Type} {c : Codec α} {name tag : String} {a b : α}
    (h : c.Restores a b) :
    (record name [.required tag c] false).Restores ((a, ()) : α × Unit) ((b, ()) : α × Unit) :=
  restores_record (List.pairwise_singleton _ tag) ⟨h, trivial⟩

/-- **Identifiers are read as they were written.** -/
theorem restores_identifier (i : Identifier) : identifier.Restores i i :=
  restores_restrict (restores_tagged (restores_string i.text)) (by simp)

theorem restores_dateForm_relaxed (text : String) :
    dateForm.Restores (.relaxed text) (.relaxed text) :=
  ⟨trivial, fun _ => rfl⟩

/-- **Instants are read back to the millisecond**, if their year has four
digits. -/
theorem restores_instant {t : Instant} (h : t.FourDigitYear) :
    instant.Restores t t.truncate := by
  refine restores_restrict (restores_tagged (restores_dateForm_relaxed (String.ofList t.text))) ?_
  show DateForm.instant (.relaxed (String.ofList t.text)) = _
  unfold DateForm.instant
  dsimp only
  rw [String.toList_ofList, Instant.ofText?_text h]

end Codec

end Academy
