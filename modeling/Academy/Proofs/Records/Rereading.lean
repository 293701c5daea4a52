import Academy.Proofs.Records.Fields
import Academy.Proofs.Records.Stored

/-!
# What is read of a record that was written

A storable record is read as it was written. Here is the other direction:
a record that is read as it was written is storable. The text of a record
can be read to its end whatever is in it, so a record that has been read
has been read field by field, and each field tells something about the
value that was written for it. The text of an instant is no date unless
its year has four digits, so there is no record at all with another date
in it. A number may have become another one, and if it has not, it
survives.

The two directions together say that nothing in `Storable` can be spared
(`Collection.readsAs_iff`).
-/

namespace Academy

namespace Codec

variable {α β : Type} {c : Codec α} {a b : α}

/-- **What a codec writes for `a` is read as `b`**, with some room for nesting. -/
def ReadsAs (c : Codec α) (a b : α) : Prop :=
  ∃ room, c.decode room (c.encode a).reading = .ok b

theorem Restores.readsAs (h : c.Restores a b) : c.ReadsAs a b :=
  ⟨0, h.decode 0⟩

/-- A text that a codec writes is read to its end. -/
theorem Legible.readsAs_of_ofText (hc : c.Legible) (h : c.ofText (c.text a) = .ok b) :
    c.ReadsAs a b := by
  rw [ofText_eq_ok_iff, text, Json.readingOfText_text (hc a)] at h
  exact ⟨_, h.1⟩

namespace ReadsAs

theorem of_correspond {forth : α → β} {back : β → α} {x y : β}
    (h : (c.correspond forth back).ReadsAs x y) : ∃ a, c.ReadsAs (back x) a ∧ forth a = y := by
  obtain ⟨room, h⟩ := h
  obtain ⟨a, hread, hforth⟩ := exists_of_map_eq_ok h
  exact ⟨a, ⟨room, hread⟩, hforth⟩

theorem of_restrict {forth : α → Except DecodeError β} {back : β → α} {x y : β}
    (h : (c.restrict forth back).ReadsAs x y) :
    ∃ a, c.ReadsAs (back x) a ∧ forth a = .ok y := by
  obtain ⟨room, h⟩ := h
  obtain ⟨a, hread, hforth⟩ := exists_of_bind_eq_ok h
  exact ⟨a, ⟨room, hread⟩, hforth⟩

/-- A value that may be missing and is not: it is read as the value that it was,
or it was written as `null`. -/
theorem of_nullable {y : Option α} (h : c.nullable.ReadsAs (some a) y)
    (ha : (c.encode a).Readable) :
    (∃ b, c.ReadsAs a b ∧ some b = y) ∨ c.encode a = .null := by
  obtain ⟨room, h⟩ := h
  by_cases hnull : c.encode a = .null
  · exact .inr hnull
  · change c.nullable.decode room (c.encode a).reading = .ok y at h
    unfold nullable at h
    dsimp only at h
    split at h
    · next hread => exact absurd hread (Json.reading_ne_null ha hnull)
    · obtain ⟨b, hread, hb⟩ := exists_of_map_eq_ok h
      exact .inl ⟨b, ⟨room, hread⟩, hb⟩

/-- **A record is read field by field.** -/
theorem of_record {name : String} {fields : List Field} {fills : Bool}
    {row row' : Field.Row fields} (hnames : (fields.map (·.name)).Nodup)
    (h : (record name fields fills).ReadsAs row row') :
    Field.RowRelated (fun f => f.codec.ReadsAs) fields row row' := by
  obtain ⟨room, h⟩ := h
  rw [decode_record hnames, Field.rereadRow_eq_ok_iff] at h
  exact h.imp fun _ _ _ hvalue => ⟨_, hvalue⟩

/-! ## Numbers and dates -/

/-- **A number that is read as itself survives.** -/
theorem survives {x : Binary64} (h : binary64.ReadsAs x x) : x.Survives := by
  obtain ⟨room, h⟩ := h
  unfold Binary64.Survives
  rw [ofText_eq_ok_iff, text, Json.readingOfText_text (legible_binary64 x)]
  exact ⟨h, rfl⟩

/-- A number that is written with seventeen digits and read as its neighbour. -/
example : ¬ (1.8961715471298714e-16 : Binary64).Survives := by
  decide +kernel

theorem survives_optional {x : Option Binary64} (h : binary64.nullable.ReadsAs x x) :
    ∀ y ∈ x.toList, y.Survives := by
  cases x with
  | none => exact nofun
  | some x =>
    refine List.forall_mem_singleton.mpr ?_
    rcases h.of_nullable (legible_binary64 x) with ⟨y, hy, heq⟩ | hnull
    · obtain rfl := Option.some.inj heq
      exact hy.survives
    · -- a number that is missed is not read as a number
      obtain ⟨room, h⟩ := h
      change binary64.nullable.decode room (binary64.encode x).reading = _ at h
      rw [hnull] at h
      exact nomatch Except.ok.inj h

/-- **An instant that is read has a year of four digits.** -/
theorem fourDigitYear {t u : Instant} (h : instant.ReadsAs t u) : t.FourDigitYear := by
  obtain ⟨⟨form, rest⟩, hrow, hform⟩ := h.of_restrict
  have hnames : ([Field.required instantTag dateForm].map (·.name)).Nodup :=
    List.pairwise_singleton _ instantTag
  obtain ⟨⟨room, hdate⟩, -⟩ := hrow.of_record hnames
  obtain rfl : .relaxed (String.ofList t.text) = form := Except.ok.inj hdate
  change DateForm.instant (.relaxed (String.ofList t.text)) = .ok u at hform
  unfold DateForm.instant at hform
  dsimp only at hform
  rw [String.toList_ofList] at hform
  split at hform
  · next hread => exact (Instant.ofText?_text_eq_some_iff.mp hread).1
  · exact nomatch hform

theorem fourDigitYear_optional {t u : Option Instant} (h : instant.nullable.ReadsAs t u) :
    ∀ t' ∈ t.toList, t'.FourDigitYear := by
  cases t with
  | none => exact nofun
  | some t =>
    rcases h.of_nullable (legible_instant t) with ⟨u, hu, -⟩ | hnull
    · exact List.forall_mem_singleton.mpr hu.fourDigitYear
    · exact nomatch hnull

end ReadsAs

end Codec

/-! ## Records -/

section

open Codec

theorem Instructor.of_readsAs {i i' : Instructor Identifier} (h : Instructor.codec.ReadsAs i i') :
    binary64.ReadsAs i.rating i'.rating := by
  obtain ⟨⟨_, _, _, _, _, _, _, _, _⟩, hrow, rfl⟩ := h.of_correspond
  obtain ⟨-, -, -, -, -, -, hrating, -⟩ := hrow.of_record (by decide)
  exact hrating

theorem Student.of_readsAs {s s' : Student Identifier Instant}
    (h : Student.codec.ReadsAs s s') : instant.ReadsAs s.registeredAt s'.registeredAt := by
  obtain ⟨⟨_, _, _, _, _, _, _, _⟩, hrow, rfl⟩ := h.of_correspond
  obtain ⟨-, -, -, -, hregistered, -⟩ := hrow.of_record (by decide)
  exact hregistered

theorem Course.of_readsAs {c c' : Course Identifier Instant} (h : Course.codec.ReadsAs c c') :
    binary64.ReadsAs c.price c'.price ∧ binary64.ReadsAs c.hours c'.hours ∧
      instant.ReadsAs c.createdAt c'.createdAt ∧ binary64.ReadsAs c.rating c'.rating := by
  obtain ⟨⟨_, _, _, _, _, _, _, _, _, _, _, _, _⟩, hrow, rfl⟩ := h.of_correspond
  obtain ⟨-, -, -, -, -, hprice, hhours, hcreated, -, hrating, -⟩ := hrow.of_record (by decide)
  exact ⟨hprice, hhours, hcreated, hrating⟩

theorem Enrollment.of_readsAs {e e' : Enrollment Identifier Instant}
    (h : Enrollment.codec.ReadsAs e e') :
    instant.ReadsAs e.enrolledAt e'.enrolledAt ∧
      binary64.nullable.ReadsAs e.finalGrade e'.finalGrade ∧
      instant.nullable.ReadsAs e.lastAccessed e'.lastAccessed := by
  obtain ⟨⟨_, _, _, _, _, _, _, _, _⟩, hrow, rfl⟩ := h.of_correspond
  obtain ⟨-, -, -, henrolled, -, -, hgrade, haccessed, -⟩ := hrow.of_record (by decide)
  exact ⟨henrolled, hgrade, haccessed⟩

theorem Review.of_readsAs {r r' : Review Identifier Instant} (h : Review.codec.ReadsAs r r') :
    instant.ReadsAs r.createdAt r'.createdAt := by
  obtain ⟨⟨_, _, _, _, _, _, _, _⟩, hrow, rfl⟩ := h.of_correspond
  obtain ⟨-, -, -, -, -, hcreated, -⟩ := hrow.of_record (by decide)
  exact hcreated

theorem Payment.of_readsAs {p p' : Payment Identifier Instant} (h : Payment.codec.ReadsAs p p') :
    binary64.ReadsAs p.amount p'.amount ∧ instant.ReadsAs p.paidAt p'.paidAt := by
  obtain ⟨⟨_, _, _, _, _, _, _, _, _, _⟩, hrow, rfl⟩ := h.of_correspond
  obtain ⟨-, -, -, hamount, -, hpaid, -⟩ := hrow.of_record (by decide)
  exact ⟨hamount, hpaid⟩

end

namespace Collection

variable {c : Collection} {r r' : Dataset.Record Identifier Instant c}

/-- **A record that is read has dates in years of four digits only.** -/
theorem fourDigitYear_of_readsAs (h : c.codec.ReadsAs r r') :
    ∀ t ∈ Dataset.Record.dates c r, t.FourDigitYear := by
  cases c with
  | categories => exact nofun
  | instructors => exact nofun
  | students => exact List.forall_mem_singleton.mpr (Student.of_readsAs h).fourDigitYear
  | courses => exact List.forall_mem_singleton.mpr (Course.of_readsAs h).2.2.1.fourDigitYear
  | enrollments =>
    obtain ⟨henrolled, -, haccessed⟩ := Enrollment.of_readsAs h
    exact List.forall_mem_cons.mpr ⟨henrolled.fourDigitYear, haccessed.fourDigitYear_optional⟩
  | reviews => exact List.forall_mem_singleton.mpr (Review.of_readsAs h).fourDigitYear
  | payments => exact List.forall_mem_singleton.mpr (Payment.of_readsAs h).2.fourDigitYear

/-- **A record whose numbers are read as they were survives.** -/
theorem survives_of_readsAs {f : Instant → Instant}
    (h : c.codec.ReadsAs r (Dataset.Record.mapDates f c r)) :
    ∀ x ∈ Dataset.Record.numbers c r, x.Survives := by
  cases c with
  | categories => exact nofun
  | instructors => exact List.forall_mem_singleton.mpr (Instructor.of_readsAs h).survives
  | students => exact nofun
  | courses =>
    obtain ⟨hprice, hhours, -, hrating⟩ := Course.of_readsAs h
    exact List.forall_mem_cons.mpr ⟨hprice.survives, List.forall_mem_cons.mpr ⟨hhours.survives,
      List.forall_mem_singleton.mpr hrating.survives⟩⟩
  | enrollments => exact (Enrollment.of_readsAs h).2.1.survives_optional
  | reviews => exact nofun
  | payments => exact List.forall_mem_singleton.mpr (Payment.of_readsAs h).1.survives

/-- **A record is read as it was written, with its dates cut off, exactly if it is
storable.** -/
theorem readsAs_iff :
    c.codec.ReadsAs r (Dataset.Record.mapDates Instant.truncate c r) ↔
      Dataset.Record.Storable c r :=
  ⟨fun h => ⟨fourDigitYear_of_readsAs h, survives_of_readsAs h⟩, fun h => (c.restores h).readsAs⟩

end Collection

end Academy
