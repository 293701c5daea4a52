import Academy.Proofs.Files.Lines
import Academy.Proofs.Records.Accepted

/-!
# Identifiers and instants under their tags

The tools that the files are for know an identifier by the tag `$oid` and an
instant by the tag `$date`. What is accepted is more than that. A tag is
read as a record with one field, and a record can also be given as an
array, so an identifier and an instant can stand in an array of their own,
without a tag; and the record around them can be an array itself.

That is all, though: `Collection.Shape` says what a line is that has been
read as a record.
-/

namespace Academy

/-! ## Tags -/

namespace Reading

/-- **A value under a tag**: that of the only member with this name. -/
def UnderTag (reading : Reading) (tag : String) (value : Reading) : Prop :=
  ∃ members, reading = .object members none ∧ OnlyMember members tag value

/-- A value under a tag, or in an array of its own. -/
def Wraps (reading : Reading) (tag : String) (value : Reading) : Prop :=
  reading.UnderTag tag value ∨ reading = .array [value] none

/-- **The value of an identifier**: 24 hexadecimal digits, wrapped. -/
def IsIdentifier (reading : Reading) : Prop :=
  ∃ (text : String) (stop : Option Fault), reading.Wraps identifierTag (.string (.ok text) stop) ∧
    text.toList.length = 24 ∧ ∀ c ∈ text.toList, (hexDigitValue? c).isSome

/-- **The value of an instant**: one of the forms of dates, wrapped. -/
def IsInstant (reading : Reading) : Prop :=
  ∃ (value : Reading) (room : Nat) (form : DateForm) (t : Instant),
    reading.Wraps instantTag value ∧ Codec.dateForm.decode room value = .ok form ∧
      form.instant = .ok t

end Reading

namespace Codec

variable {α : Type} {room : Nat} {reading : Reading}

/-- A tag is read as a record with one field. -/
theorem wraps_of_decode {name tag : String} {c : Codec α} {row : Field.Row [.required tag c]}
    (h : (record name [.required tag c] false).decode room reading = .ok row) :
    ∃ value, reading.Wraps tag value ∧ c.decode (room - 1) value = .ok row.1 := by
  have hnames : ([Field.required tag c].map (·.name)).Nodup := List.pairwise_singleton _ tag
  obtain ⟨hrecord, hrow, -⟩ := of_decode_record hnames h
  obtain ⟨value, hvalue, hdecode⟩ | ⟨-, habsent⟩ := hrow
  · refine ⟨value, ?_, hdecode⟩
    cases reading with
    | object members stop =>
      obtain rfl : stop = none := hrecord
      exact .inl ⟨members, rfl, hvalue⟩
    | array items stop =>
      obtain ⟨rfl, hlength⟩ := hrecord
      obtain ⟨item, rfl⟩ := List.length_eq_one_iff.mp hlength
      obtain ⟨-, rfl⟩ := Prod.mk.inj (List.mem_singleton.mp hvalue)
      exact .inr rfl
    | absent => exact hvalue.elim
    | string used stop => exact hvalue.elim
    | scalar used stop => exact hvalue.elim
  · exact nomatch habsent

theorem isSome_of_hexValueFrom? {n k : Nat} {s : List Char} (h : hexValueFrom? n s = some k) :
    ∀ c ∈ s, (hexDigitValue? c).isSome := by
  induction s generalizing n with
  | nil => exact nofun
  | cons c s ih =>
    rw [hexValueFrom?] at h
    obtain ⟨d, hd, h⟩ := Option.bind_eq_some_iff.mp h
    exact List.forall_mem_cons.mpr ⟨Option.isSome_of_eq_some hd, ih h⟩

/-- **What an identifier is read from.** -/
theorem isIdentifier_of_decode {i : Identifier} (h : identifier.decode room reading = .ok i) :
    reading.IsIdentifier := by
  obtain ⟨row, hrow, hparse⟩ := exists_of_bind_eq_ok h
  obtain ⟨value, hwraps, hvalue⟩ := wraps_of_decode hrow
  obtain ⟨text, rest⟩ := row
  have hstring : ∃ stop, value = .string (.ok text) stop := by
    change string.decode (room - 1) value = .ok text at hvalue
    unfold string stringAs at hvalue
    dsimp only at hvalue
    split at hvalue
    · next s stop => exact ⟨stop, by rw [Except.ok.inj hvalue]⟩
    · exact nomatch hvalue
  obtain ⟨stop, rfl⟩ := hstring
  change Identifier.parse text = .ok i at hparse
  unfold Identifier.parse Identifier.ofText? at hparse
  refine ⟨text, stop, hwraps, ?_⟩
  split at hparse
  · next j hj =>
    split at hj
    · next hlength =>
      obtain ⟨n, hn, -⟩ := Option.map_eq_some_iff.mp hj
      exact ⟨hlength, isSome_of_hexValueFrom? hn⟩
    · exact nomatch hj
  · exact nomatch hparse

/-- **What an instant is read from.** -/
theorem isInstant_of_decode {t : Instant} (h : instant.decode room reading = .ok t) :
    reading.IsInstant := by
  obtain ⟨row, hrow, hform⟩ := exists_of_bind_eq_ok h
  obtain ⟨value, hwraps, hvalue⟩ := wraps_of_decode hrow
  exact ⟨value, room - 1, row.1, t, hwraps, hvalue, hform⟩

/-- What an instant is read from that may be `null`. -/
theorem isInstant_of_decode_nullable {t : Option Instant}
    (h : instant.nullable.decode room reading = .ok t) :
    (∃ stop, reading = .scalar (.ok .null) stop) ∨ reading.IsInstant := by
  unfold nullable at h
  dsimp only at h
  split at h
  · next stop => exact .inl ⟨stop, rfl⟩
  · obtain ⟨u, hu, -⟩ := exists_of_map_eq_ok h
    exact .inr (isInstant_of_decode hu)

end Codec

/-! ## Records -/

namespace Collection

/-- **What a line is that is read as a record**: an object, or an array of as many
items as there are fields, with an identifier and an instant for each
field that is one. -/
structure Shape (c : Collection) (reading : Reading) : Prop where
  /-- It is a complete object, or a complete array with an item for each field. -/
  isRecord : reading.IsRecord c.fields
  /-- The identifiers are 24 hexadecimal digits, wrapped. -/
  identifiers : ∀ name, .required name .identifier ∈ c.fields →
    ∃ value, reading.FieldValue c.fields (.required name .identifier) value ∧ value.IsIdentifier
  /-- The instants are dates, wrapped. -/
  instants : ∀ name, .required name .instant ∈ c.fields →
    ∃ value, reading.FieldValue c.fields (.required name .instant) value ∧ value.IsInstant
  /-- An instant that may be missing is missing, or `null`, or a date. -/
  optional_instants : ∀ name, .optional name .instant ∈ c.fields →
    reading.Lacks (.optional name .instant) ∨
    ∃ value, reading.FieldValue c.fields (.optional name .instant) value ∧
      ((∃ stop, value = .scalar (.ok .null) stop) ∨ value.IsInstant)

/-- **A record is read from a value of its shape.** -/
theorem shape_of_decode {c : Collection} {room : Nat} {reading : Reading}
    {r : Dataset.Record Identifier Instant c} (h : c.codec.decode room reading = .ok r) :
    c.Shape reading := by
  obtain ⟨name, row, hrow⟩ := exists_row h
  obtain ⟨hrecord, hall⟩ := Codec.of_decode_record c.fields_nodup hrow
  refine ⟨hrecord, fun name hf => ?_, fun name hf => ?_, fun name hf => ?_⟩
  · obtain ⟨i, ⟨value, hvalue, hdecode⟩ | ⟨-, habsent⟩⟩ := hall.exists_value hf
    · exact ⟨value, hvalue, Codec.isIdentifier_of_decode hdecode⟩
    · exact nomatch habsent
  · obtain ⟨t, ⟨value, hvalue, hdecode⟩ | ⟨-, habsent⟩⟩ := hall.exists_value hf
    · exact ⟨value, hvalue, Codec.isInstant_of_decode hdecode⟩
    · exact nomatch habsent
  · obtain ⟨t, ⟨value, hvalue, hdecode⟩ | ⟨hlacks, -⟩⟩ := hall.exists_value hf
    · exact .inr ⟨value, hvalue, Codec.isInstant_of_decode_nullable hdecode⟩
    · exact .inl hlacks

end Collection

/-! ## Lines -/

/-- **A file is read line by line**: each line is blank or gives a record. -/
theorem Codec.ofLine_of_ofLines {α : Type} {c : Codec α} {number : Nat}
    {lines : List (List UInt8)} {as : List α} (h : c.ofLines number lines = .ok as) :
    ∀ line ∈ lines, c.ofLine line = .ok none ∨ ∃ a ∈ as, c.ofLine line = .ok (some a) := by
  induction lines generalizing number as with
  | nil => exact List.forall_mem_nil _
  | cons line lines ih =>
    rw [ofLines] at h
    rw [List.forall_mem_cons]
    cases hline : c.ofLine line with
    | error fault =>
      rw [hline] at h
      cases h
    | ok found =>
      rw [hline] at h
      cases found with
      | none => exact ⟨.inl rfl, ih h⟩
      | some a =>
        obtain ⟨rest, hrest, rfl⟩ := exists_of_map_eq_ok h
        refine ⟨.inr ⟨a, List.mem_cons_self, rfl⟩, fun l hl => ?_⟩
        rcases ih hrest l hl with hblank | ⟨b, hb, hread⟩
        · exact .inl hblank
        · exact .inr ⟨b, List.mem_cons_of_mem _ hb, hread⟩

/-- A line that is read is the text of a record from its beginning to its end. -/
theorem Codec.ofText_of_ofLine {α : Type} {c : Codec α} {line : List UInt8} {a : α}
    (h : c.ofLine line = .ok (some a)) :
    ∃ s, ofUtf8Bytes? line = some s ∧ c.ofText s = .ok a := by
  unfold ofLine at h
  cases hbytes : ofUtf8Bytes? line with
  | none =>
    rw [hbytes] at h
    exact nomatch h
  | some s =>
    rw [hbytes] at h
    refine ⟨s, rfl, ?_⟩
    dsimp only at h
    split at h
    · exact nomatch Except.ok.inj h
    · cases htext : c.ofText s with
      | error e =>
        rw [htext] at h
        exact nomatch h
      | ok b =>
        rw [htext] at h
        exact congrArg _ (Option.some.inj (Except.ok.inj h))

/-- **What is read as a record.** A line that gives a record of a collection is a
JSON value of the shape that the collection has, with nothing after it; and
a file that is read consists of such lines and of blank ones. -/
theorem Collection.lines_shape (c : Collection) :
    (∀ line r, c.codec.ofLine line = .ok (some r) → ∃ s, ofUtf8Bytes? line = some s ∧
      (Reading.ofText s).2 = [] ∧ c.Shape (Reading.ofText s).1) ∧
    (∀ bytes records, c.codec.ofBytes bytes = .ok records → ∀ line ∈ physicalLines bytes,
      c.codec.ofLine line = .ok none ∨ ∃ r ∈ records, c.codec.ofLine line = .ok (some r)) := by
  refine ⟨fun line r h => ?_, fun bytes records h => Codec.ofLine_of_ofLines h⟩
  obtain ⟨s, hs, htext⟩ := Codec.ofText_of_ofLine h
  obtain ⟨hdecode, hrest⟩ := Codec.ofText_eq_ok_iff.mp htext
  exact ⟨s, hs, hrest, shape_of_decode hdecode⟩

/-! ## Without tags -/

namespace Reading

/-- The items of a complete array. -/
def items? : Reading → Option (List Reading)
  | .array items none => some items
  | _ => none

theorem eq_array_of_items? {reading : Reading} {items : List Reading}
    (h : reading.items? = some items) : reading = .array items none := by
  unfold items? at h
  split at h
  · rw [Option.some.inj h]
  · exact nomatch h

/-- The items of the array under the first name of a complete object. -/
def firstItems? : Reading → Option (String × List Reading)
  | .object ((.ok name, value) :: _) none => value.items?.map (name, ·)
  | _ => none

theorem exists_object_of_firstItems? {reading : Reading} {name : String} {items : List Reading}
    (h : reading.firstItems? = some (name, items)) :
    ∃ members, reading = .object ((.ok name, .array items none) :: members) none := by
  unfold firstItems? at h
  split at h
  · next value members =>
    obtain ⟨found, hfound, heq⟩ := Option.map_eq_some_iff.mp h
    obtain ⟨rfl, rfl⟩ := Prod.mk.inj heq
    exact ⟨members, by rw [eq_array_of_items? hfound]⟩
  · exact nomatch h

end Reading

namespace Category

/-- The category of the following lines. -/
def tea : Category Identifier :=
  ⟨⟨0x65a1f0c2e4b0a1b2c3d4e5f6⟩, "Tea", "Food"⟩

/-- A line with an object, in which the identifier stands in an array. -/
def halfTagged : List Char :=
  "\x7b\"_id\":[\"65a1f0c2e4b0a1b2c3d4e5f6\"],\"name\":\"Tea\",\"description\":\"Food\"\x7d".toList

/-- A line with an array. -/
def untagged : List Char :=
  "[[\"65a1f0c2e4b0a1b2c3d4e5f6\"],\"Tea\",\"Food\"]".toList

theorem ofLine_of_ofText {s : List Char} {category : Category Identifier}
    (hblank : isBlankText s = false)
    (hread : (match codec.ofText s with
      | .ok c => decide (c = category)
      | .error _ => false) = true) : codec.ofLine (utf8Bytes s) = .ok (some category) := by
  unfold Codec.ofLine
  rw [ofUtf8Bytes?_utf8Bytes]
  dsimp only
  rw [if_neg (Bool.eq_false_iff.mp hblank)]
  split at hread
  · next c heq => rw [heq, of_decide_eq_true hread]
  · exact nomatch hread

theorem ofLine_halfTagged : codec.ofLine (utf8Bytes halfTagged) = .ok (some tea) :=
  ofLine_of_ofText (by decide +kernel) (by decide +kernel)

theorem ofLine_untagged : codec.ofLine (utf8Bytes untagged) = .ok (some tea) :=
  ofLine_of_ofText (by decide +kernel) (by decide +kernel)

end Category

theorem Collection.lines_shape_halfTagged :
    let line := utf8Bytes Category.halfTagged
    Category.codec.ofLine line = .ok (some .tea) ∧
      (∃ s, ofUtf8Bytes? line = some s ∧ (Reading.ofText s).2 = [] ∧
        categories.Shape (Reading.ofText s).1) ∧
      Category.codec.ofBytes (line ++ [0x0A]) = .ok [.tea] ∧
      ∀ l ∈ physicalLines (line ++ [0x0A]), Category.codec.ofLine l = .ok none ∨
        ∃ r ∈ [Category.tea], Category.codec.ofLine l = .ok (some r) := by
  intro line
  have hline := Category.ofLine_halfTagged
  have hplain : ∀ b ∈ line, PlainByte b :=
    plainByte_of_mem_utf8Bytes (Json.noControl_of_all (by decide +kernel))
  have hlines : physicalLines (line ++ [0x0A]) = [line] :=
    physicalLines_flatMap (List.forall_mem_singleton.mpr hplain)
  have hfile : Category.codec.ofBytes (line ++ [0x0A]) = .ok [.tea] := by
    unfold Codec.ofBytes
    rw [hlines, Codec.ofLines, hline]
    rfl
  obtain ⟨hshape, hfiles⟩ := Collection.lines_shape .categories
  exact ⟨hline, hshape _ _ hline, hfile, hfiles _ _ hfile⟩

/-- **A line need not be a tagged object**: one with an array is read as a record,
and so is one with an object whose identifier has no tag. -/
theorem Collection.lines_untagged :
    (∃ r, Category.codec.ofLine (utf8Bytes Category.untagged) = .ok (some r)) ∧
      (∃ items, (Reading.ofText Category.untagged).1 = .array items none) ∧
      (∃ r, Category.codec.ofLine (utf8Bytes Category.halfTagged) = .ok (some r)) ∧
      ∃ items members, (Reading.ofText Category.halfTagged).1
        = .object ((.ok "_id", .array items none) :: members) none := by
  have harray : (Reading.ofText Category.untagged).1.items?.isSome = true := by decide +kernel
  have hobject : (Reading.ofText Category.halfTagged).1.firstItems?.map Prod.fst = some "_id" := by
    decide +kernel
  obtain ⟨items, hitems⟩ := Option.isSome_iff_exists.mp harray
  obtain ⟨⟨name, inner⟩, hinner, rfl⟩ := Option.map_eq_some_iff.mp hobject
  exact ⟨⟨_, Category.ofLine_untagged⟩, ⟨items, Reading.eq_array_of_items? hitems⟩,
    ⟨_, Category.ofLine_halfTagged⟩, inner, Reading.exists_object_of_firstItems? hinner⟩

end Academy
