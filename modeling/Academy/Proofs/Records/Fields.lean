import Academy.Proofs.Json.Legible

/-!
# The fields of the records

The records of all collections are made of fields of a few kinds: strings,
numbers, identifiers, instants, words, lists of strings, and fields that
may be `null`. What is true of each kind of field is true of all records,
and it is enough to go through the records once to see that there are no
other kinds (`Collection.ofField`).
-/

namespace Academy

/-- The names under which identifiers and instants are. -/
def IsTag (name : String) : Prop :=
  name = identifierTag ∨ name = instantTag

/-- **How the fields of records are written and read.** No word is a tag. -/
inductive Codec.OfField : {α : Type} → Codec α → Prop
  | string : OfField .string
  | identifier : OfField .identifier
  | instant : OfField .instant
  | uint8 : OfField .uint8
  | uint32 : OfField .uint32
  | binary64 : OfField .binary64
  | strings : OfField (.list .string)
  | words {α : Type} {words : List (String × α)} {wordOf : α → String} :
    words.lookup identifierTag = none → words.lookup instantTag = none →
    OfField (.oneOf words wordOf)
  | nullable {α : Type} {c : Codec α} : OfField c → OfField c.nullable

namespace Collection

/-- The fields of the records of a collection. -/
def fields : Collection → List Field
  | categories => Category.fields
  | instructors => Instructor.fields
  | students => Student.fields
  | courses => Course.fields
  | enrollments => Enrollment.fields
  | reviews => Review.fields
  | payments => Payment.fields

theorem fields_nodup (c : Collection) : (c.fields.map (·.name)).Nodup := by
  cases c <;> decide

/-- The records of a collection are records of its fields. -/
theorem exists_codec_eq (c : Collection) :
    ∃ name forth back, c.codec = (Codec.record name c.fields false).correspond forth back := by
  cases c <;> exact ⟨_, _, _, rfl⟩

theorem exists_row {c : Collection} {room : Nat} {reading : Reading}
    {r : Dataset.Record Identifier Instant c} (h : c.codec.decode room reading = .ok r) :
    ∃ name row, (Codec.record name c.fields false).decode room reading = .ok row := by
  obtain ⟨name, forth, back, heq⟩ := c.exists_codec_eq
  rw [heq] at h
  obtain ⟨row, hrow, -⟩ := exists_of_map_eq_ok h
  exact ⟨name, row, hrow⟩

/-- **There are no other kinds of fields.** -/
theorem ofField (c : Collection) : ∀ f ∈ c.fields, f.codec.OfField := by
  cases c with
  | categories =>
    simp only [fields, Category.fields, List.forall_mem_cons]
    exact ⟨.identifier, .string, .string, nofun⟩
  | instructors =>
    simp only [fields, Instructor.fields, List.forall_mem_cons]
    exact ⟨.identifier, .string, .string, .string, .string, .string, .binary64, .uint32, nofun⟩
  | students =>
    simp only [fields, Student.fields, List.forall_mem_cons]
    exact ⟨.identifier, .string, .string, .string, .instant, .words (by decide) (by decide),
      .uint8, nofun⟩
  | courses =>
    simp only [fields, Course.fields, List.forall_mem_cons]
    exact ⟨.identifier, .string, .string, .identifier, .identifier, .binary64, .binary64, .instant,
      .strings, .binary64, .uint32, .words (by decide) (by decide), nofun⟩
  | enrollments =>
    simp only [fields, Enrollment.fields, List.forall_mem_cons]
    exact ⟨.identifier, .identifier, .identifier, .instant, .words (by decide) (by decide), .uint8,
      .nullable .binary64, .nullable .instant, nofun⟩
  | reviews =>
    simp only [fields, Review.fields, List.forall_mem_cons]
    exact ⟨.identifier, .identifier, .identifier, .uint8, .string, .instant, .uint32, nofun⟩
  | payments =>
    simp only [fields, Payment.fields, List.forall_mem_cons]
    exact ⟨.identifier, .identifier, .identifier, .binary64, .string, .instant, .string,
      .words (by decide) (by decide), .string, nofun⟩

end Collection

/-! ## Legibility -/

open Codec in
theorem Codec.OfField.legible {α : Type} {c : Codec α} (h : c.OfField) : c.Legible := by
  induction h with
  | string => exact legible_string
  | identifier => exact legible_identifier
  | instant => exact legible_instant
  | uint8 => exact legible_uint8
  | uint32 => exact legible_uint32
  | binary64 => exact legible_binary64
  | strings => exact legible_list legible_string
  | words => exact legible_oneOf _ _
  | nullable _ ih => exact legible_nullable ih

/-- **The records of each collection can be read**, whatever is in them. -/
theorem Collection.legible (c : Collection) : c.codec.Legible := by
  obtain ⟨name, forth, back, heq⟩ := c.exists_codec_eq
  rw [heq]
  exact Codec.legible_correspond (Codec.legible_record fun f hf => (c.ofField f hf).legible)

end Academy
