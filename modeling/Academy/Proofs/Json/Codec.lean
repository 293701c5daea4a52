import Academy.Proofs.Json.Reading

/-!
# What codecs restore

A codec is right if it reads what it writes. For most types that means
that it reads the value itself; for instants it does not, since their text
drops what is finer than a millisecond. So the property relates two
values: `c.Restores a b` says that what is written for `a` is read as `b`,
and a codec put together from others restores what these restore.

The value passes through text, where numbers could be lost, so part of the
property is that what is written is readable. Beyond that a codec has to
do with readings only, and the text is not looked at again.
-/

namespace Academy

section

variable {ε α β : Type} {x : Except ε α} {b : β}

theorem exists_of_map_eq_ok {f : α → β} (h : x.map f = .ok b) : ∃ a, x = .ok a ∧ f a = b := by
  cases x with
  | error e => exact nomatch h
  | ok a => exact ⟨a, rfl, Except.ok.inj h⟩

theorem exists_of_bind_eq_ok {f : α → Except ε β} (h : x.bind f = .ok b) :
    ∃ a, x = .ok a ∧ f a = .ok b := by
  cases x with
  | error e => exact nomatch h
  | ok a => exact ⟨a, rfl, h⟩

end

namespace Codec

variable {α β : Type}

/-- **What a codec writes for `a` is read as `b`.** -/
structure Restores (c : Codec α) (a b : α) : Prop where
  /-- What is written can be read. -/
  readable : (c.encode a).Readable
  /-- It is read as the other value. -/
  decode : ∀ room, c.decode room (c.encode a).reading = .ok b

/-- **A text that a codec writes is read by it.** -/
theorem Restores.ofText {c : Codec α} {a b : α} (h : c.Restores a b) :
    c.ofText (c.text a) = .ok b := by
  rw [ofText_eq_ok_iff, text, Json.readingOfText_text h.readable]
  exact ⟨h.decode _, rfl⟩

theorem restores_correspond {c : Codec α} {forth : α → β} {back : β → α} {b b' : β} {a : α}
    (h : c.Restores (back b) a) (hforth : forth a = b') :
    (c.correspond forth back).Restores b b' where
  readable := h.readable
  decode room := by
    show (c.decode room (c.encode (back b)).reading).map forth = _
    rw [h.decode room, ← hforth]
    rfl

theorem restores_restrict {c : Codec α} {forth : α → Except DecodeError β} {back : β → α}
    {b b' : β} {a : α} (h : c.Restores (back b) a) (hforth : forth a = .ok b') :
    (c.restrict forth back).Restores b b' where
  readable := h.readable
  decode room := by
    show (c.decode room (c.encode (back b)).reading).bind forth = _
    rw [h.decode room, ← hforth]
    rfl

/-! ## Scalars -/

theorem restores_string (s : String) : string.Restores s s :=
  ⟨trivial, fun _ => rfl⟩

theorem restores_natBelow {bound n : Nat} {expected : String} (hn : n < bound)
    (hbound : bound ≤ UInt64.size) : (natBelow bound expected).Restores n n where
  readable := Json.nat_readable (hn.trans_le hbound)
  decode room := by
    show (natBelow bound expected).decode room (Json.nat n).reading = _
    rw [Json.nat_reading (hn.trans_le hbound)]
    exact if_pos hn

theorem restores_uint8 (n : UInt8) : uint8.Restores n n :=
  restores_correspond (restores_natBelow n.toNat_lt (by decide)) UInt8.ofNat_toNat

theorem restores_uint32 (n : UInt32) : uint32.Restores n n :=
  restores_correspond (restores_natBelow n.toNat_lt (by decide)) UInt32.ofNat_toNat

theorem binary64_encode {x : Binary64} (hx : x.Survives) :
    binary64.encode x = .number (.real x) :=
  if_pos hx.isFinite

/-- **A number is restored if it survives.** -/
theorem restores_binary64 {x : Binary64} (hx : x.Survives) : binary64.Restores x x where
  readable := by
    rw [binary64_encode hx]
    exact ⟨_, hx.readNumeral⟩
  decode _ := by
    rw [binary64_encode hx, Json.real_reading hx]
    rfl

theorem restores_none (c : Codec α) : c.nullable.Restores none none :=
  ⟨trivial, fun _ => rfl⟩

/-- A value that may be `null` is restored if it is not written as `null`. -/
theorem restores_some {c : Codec α} {a b : α} (h : c.Restores a b)
    (hnull : c.encode a ≠ .null) : c.nullable.Restores (some a) (some b) where
  readable := h.readable
  decode room := by
    have hdecode := h.decode room
    unfold nullable
    dsimp only
    split
    · next heq => exact absurd heq (Json.reading_ne_null h.readable hnull)
    · rw [hdecode]
      rfl

/-! ## Words and lists -/

theorem restores_oneOf {words : List (String × α)} {wordOf : α → String} {a : α}
    (h : words.lookup (wordOf a) = some a) : (oneOf words wordOf).Restores a a where
  readable := trivial
  decode _ := by
    show ofWord words (wordOf a) = _
    rw [ofWord, h]

theorem restores_list {c : Codec α} {as : List α} (h : ∀ a ∈ as, c.Restores a a) :
    c.list.Restores as as where
  readable := by
    refine Json.itemsReadable_iff.mpr fun j hj => ?_
    obtain ⟨a, ha, rfl⟩ := List.mem_map.mp hj
    exact (h a ha).readable
  decode room := by
    have hitems : decodeItems c (room - 1) (Json.itemReadings (as.map c.encode)) = .ok as := by
      induction as with
      | nil => rfl
      | cons a as ih =>
        rw [List.map_cons, Json.itemReadings, decodeItems, (h a List.mem_cons_self).decode,
          ih fun a ha => h a (List.mem_cons_of_mem _ ha)]
        rfl
    show (decodeItems c (room - 1) (Json.itemReadings (as.map c.encode)) >>= fun as => pure as) = _
    rw [hitems]
    rfl

end Codec

/-! ## Records -/

namespace Field

/-- **Rows that are related field by field.** -/
def RowRelated (R : (f : Field) → f.Value → f.Value → Prop) :
    (fields : List Field) → Row fields → Row fields → Prop
  | [], _, _ => True
  | f :: fields, (a, row), (b, row') => R f a b ∧ RowRelated R fields row row'

theorem RowRelated.imp {R S : (f : Field) → f.Value → f.Value → Prop}
    (hRS : ∀ f a b, R f a b → S f a b) {fields : List Field} {row row' : Row fields}
    (h : RowRelated R fields row row') : RowRelated S fields row row' := by
  induction fields with
  | nil => trivial
  | cons f fields ih =>
    obtain ⟨value, row⟩ := row
    obtain ⟨value', row'⟩ := row'
    exact ⟨hRS f value value' h.1, ih h.2⟩

/-- **What the fields of a record restore**, each of them by its codec. -/
abbrev RowRestores (fields : List Field) (row row' : Row fields) : Prop :=
  RowRelated (fun f => f.codec.Restores) fields row row'

/-- All fields have been read. -/
def fullSlots : (fields : List Field) → Row fields → Slots fields
  | [], _ => ()
  | _ :: fields, (value, row) => (some value, fullSlots fields row)

@[simp] theorem fillSlots_fullSlots (fields : List Field) (row : Row fields) :
    fillSlots fields (fullSlots fields row) = .ok row := by
  induction fields with
  | nil => rfl
  | cons f fields ih =>
    obtain ⟨value, row⟩ := row
    show (fillSlots fields (fullSlots fields row)).map (value, ·) = _
    rw [ih]
    rfl

/-- The slots of a field and of those after it. -/
def Slots.cons {f : Field} {fields : List Field} (slot : Option f.Value)
    (slots : Slots fields) : Slots (f :: fields) :=
  (slot, slots)

theorem decodeMember_of_ne {room : Nat} {name : String} {reading : Reading} {f : Field}
    {fields : List Field} {slot : Option f.Value} {slots : Slots fields} (h : name ≠ f.name) :
    decodeMember room name reading (f :: fields) (.cons slot slots)
      = (decodeMember room name reading fields slots).map (·.map (.cons slot)) :=
  if_neg h

/-- A member whose field has not been read yet. -/
theorem decodeMember_of_eq {room : Nat} {reading : Reading} {f : Field} {fields : List Field}
    {slots : Slots fields} :
    decodeMember room f.name reading (f :: fields) (.cons none slots)
      = some ((f.codec.decode room reading).map fun value => .cons (some value) slots) :=
  if_pos rfl

theorem decodeMembers_cons {room : Nat} {fields : List Field} {name : String}
    {reading : Reading} {members : List (Except Fault String × Reading)} {slots : Slots fields} :
    decodeMembers room fields ((.ok name, reading) :: members) slots
      = match decodeMember room name reading fields slots with
        | some (.ok slots) => decodeMembers room fields members slots
        | some (.error e) => .error e
        | none => match reading.stop with
          | some f => .error (.fault f)
          | none => decodeMembers room fields members slots := rfl

/-- **Members leave a field of another name alone.** -/
theorem decodeMembers_frame {room : Nat} {f : Field} {fields : List Field}
    {members : List (Except Fault String × Reading)} (slot : Option f.Value)
    (h : ∀ m ∈ members, m.1 ≠ .ok f.name) (slots : Slots fields) :
    decodeMembers room (f :: fields) members (.cons slot slots)
      = (decodeMembers room fields members slots).map (.cons slot) := by
  induction members generalizing slots with
  | nil => rfl
  | cons m members ih =>
    obtain ⟨name, reading⟩ := m
    cases name with
    | error fault => rfl
    | ok name =>
      have hne : name ≠ f.name := fun e => h _ List.mem_cons_self (congrArg _ e)
      have ih := fun slots => ih (fun m hm => h m (List.mem_cons_of_mem _ hm)) slots
      rw [decodeMembers_cons, decodeMembers_cons, decodeMember_of_ne hne]
      rcases decodeMember room name reading fields slots with _ | e | slots'
      -- a member that has no field is passed over, if it can be read at all
      · dsimp only [Option.map_none]
        split
        · rfl
        · exact ih slots
      · rfl
      · exact ih slots'

theorem mem_memberReadings_encodeRow {fields : List Field} {row : Row fields}
    {m : Except Fault String × Reading}
    (h : m ∈ Json.memberReadings (encodeRow fields row)) : ∃ f ∈ fields, m.1 = .ok f.name := by
  induction fields with
  | nil => exact nomatch h
  | cons f fields ih =>
    obtain ⟨value, row⟩ := row
    rcases List.mem_cons.mp h with rfl | h
    · exact ⟨f, List.mem_cons_self, rfl⟩
    · obtain ⟨g, hg, heq⟩ := ih h
      exact ⟨g, List.mem_cons_of_mem _ hg, heq⟩

/-- The fields of a record, each of them read from what is written for it. -/
def rereadRow (room : Nat) : (fields : List Field) → Row fields → Except DecodeError (Row fields)
  | [], _ => .ok ()
  | f :: fields, (value, row) => do
    let value ← f.codec.decode room (f.codec.encode value).reading
    let row ← rereadRow room fields row
    pure (value, row)

/-- **The members of a record are read back into its fields**, one after the
other. -/
theorem decodeMembers_encodeRow {room : Nat} {fields : List Field}
    (hnames : (fields.map (·.name)).Nodup) (row : Row fields) :
    decodeMembers room fields (Json.memberReadings (encodeRow fields row)) (noSlots fields)
      = (rereadRow room fields row).map (fullSlots fields) := by
  induction fields with
  | nil => rfl
  | cons f fields ih =>
    obtain ⟨value, row⟩ := row
    rw [List.map_cons, List.nodup_cons] at hnames
    have hframe : ∀ m ∈ Json.memberReadings (encodeRow fields row), m.1 ≠ .ok f.name := by
      intro m hm heq
      obtain ⟨g, hg, hname⟩ := mem_memberReadings_encodeRow hm
      refine hnames.1 ?_
      rw [← Except.ok.inj (hname.symm.trans heq)]
      exact List.mem_map_of_mem hg
    show decodeMembers room (f :: fields) ((.ok f.name, (f.codec.encode value).reading) ::
      Json.memberReadings (encodeRow fields row)) (.cons none (noSlots fields)) = _
    rw [decodeMembers_cons, decodeMember_of_eq, rereadRow]
    cases f.codec.decode room (f.codec.encode value).reading with
    | error e => rfl
    | ok value' =>
      show decodeMembers room (f :: fields) _ (.cons (some value') (noSlots fields)) = _
      -- the members after the first leave its field as it has been read
      rw [decodeMembers_frame _ hframe, ih hnames.2]
      show _ = Except.map (fullSlots (f :: fields))
        (rereadRow room fields row >>= fun row => pure (value', row))
      cases rereadRow room fields row with
      | error e => rfl
      | ok row' => rfl

theorem rereadRow_eq_ok_iff {room : Nat} {fields : List Field} {row row' : Row fields} :
    rereadRow room fields row = .ok row' ↔
      RowRelated (fun f a b => f.codec.decode room (f.codec.encode a).reading = .ok b)
        fields row row' := by
  induction fields with
  | nil => exact iff_of_true rfl trivial
  | cons f fields ih =>
    obtain ⟨value, row⟩ := row
    obtain ⟨value', row'⟩ := row'
    rw [rereadRow, RowRelated, ← ih]
    cases f.codec.decode room (f.codec.encode value).reading with
    | error e => exact iff_of_false nofun fun h => nomatch h.1
    | ok a =>
      show (rereadRow room fields row >>= fun row => pure (a, row)) = _ ↔ _
      cases rereadRow room fields row with
      | error e => exact iff_of_false nofun fun h => nomatch h.2
      | ok b =>
        refine ⟨fun h => ?_, fun ⟨hvalue, hrow⟩ => ?_⟩
        · obtain ⟨rfl, rfl⟩ := Prod.mk.inj (Except.ok.inj h)
          exact ⟨rfl, rfl⟩
        · rw [Except.ok.inj hvalue, Except.ok.inj hrow]
          rfl

theorem membersReadable_encodeRow {fields : List Field} {row row' : Row fields}
    (h : RowRestores fields row row') : Json.MembersReadable (encodeRow fields row) := by
  induction fields with
  | nil => trivial
  | cons f fields ih =>
    obtain ⟨value, row⟩ := row
    obtain ⟨value', row'⟩ := row'
    exact ⟨h.1.readable, ih h.2⟩

end Field

/-- **A record is read field by field**, if its fields have different names. -/
theorem Codec.decode_record {name : String} {fields : List Field} {fills : Bool} {room : Nat}
    (hnames : (fields.map (·.name)).Nodup) (row : Field.Row fields) :
    (Codec.record name fields fills).decode room
        ((Codec.record name fields fills).encode row).reading
      = Field.rereadRow (room - 1) fields row := by
  show (do
    let slots ← Field.decodeMembers (room - 1) fields
      (Json.memberReadings (Field.encodeRow fields row)) (Field.noSlots fields)
    Field.fillSlots fields slots) = _
  rw [Field.decodeMembers_encodeRow hnames]
  cases Field.rereadRow (room - 1) fields row with
  | error e => rfl
  | ok row' => exact Field.fillSlots_fullSlots fields row'

/-- **A record restores what its fields restore.** -/
theorem Codec.restores_record {name : String} {fields : List Field} {fills : Bool}
    {row row' : Field.Row fields} (hnames : (fields.map (·.name)).Nodup)
    (h : Field.RowRestores fields row row') :
    (Codec.record name fields fills).Restores row row' where
  readable := Field.membersReadable_encodeRow h
  decode room := by
    rw [decode_record hnames, Field.rereadRow_eq_ok_iff]
    exact h.imp fun _ _ _ hvalue => hvalue.decode _

end Academy
