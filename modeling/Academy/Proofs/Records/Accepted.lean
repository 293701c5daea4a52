import Academy.Proofs.Records.Rereading

/-!
# What is accepted as a record

A record is read from an object by the names of its members, or from an
array by the places of its items. Here is what can be said of a value once
a record has been read from it: it is the one or the other and complete,
and each field has been read from its own member or item, unless it may be
missing and is.

For an object the argument follows the members. What is in the slots after
some of them is described by these members alone (`SlotsFrom`): a slot is
filled by the only member with the name of its field, and is empty where
there is none.
-/

namespace Academy

variable {α : Type}

/-! ## Members of a name -/

namespace Reading

/-- **The only member of a name**, with its value. -/
def OnlyMember (members : List (Except Fault String × Reading)) (name : String)
    (value : Reading) : Prop :=
  ∃ before after, members = before ++ (.ok name, value) :: after ∧
    ∀ m ∈ before ++ after, m.1 ≠ .ok name

/-- No member has the name. -/
def NoMember (members : List (Except Fault String × Reading)) (name : String) : Prop :=
  ∀ m ∈ members, m.1 ≠ .ok name

variable {seen : List (Except Fault String × Reading)} {name : String} {value : Reading}
  {m : Except Fault String × Reading}

theorem NoMember.snoc (h : NoMember seen name) (hm : m.1 ≠ .ok name) :
    NoMember (seen ++ [m]) name :=
  List.forall_mem_append.mpr ⟨h, List.forall_mem_singleton.mpr hm⟩

theorem NoMember.onlyMember (h : NoMember seen name) (value : Reading) :
    OnlyMember (seen ++ [(.ok name, value)]) name value :=
  ⟨seen, [], rfl, by rwa [List.append_nil]⟩

theorem OnlyMember.snoc (h : OnlyMember seen name value) (hm : m.1 ≠ .ok name) :
    OnlyMember (seen ++ [m]) name value := by
  obtain ⟨before, after, rfl, hothers⟩ := h
  refine ⟨before, after ++ [m], by rw [List.append_assoc, List.cons_append], ?_⟩
  rw [← List.append_assoc]
  exact NoMember.snoc hothers hm

end Reading

open Reading

namespace Field

variable {fields : List Field} {room : Nat} {seen members : List (Except Fault String × Reading)}

/-! ## Rows -/

/-- **Something that holds of every field** of a row with its value. -/
def RowAll (P : (f : Field) → f.Value → Prop) : (fields : List Field) → Row fields → Prop
  | [], _ => True
  | f :: fields, (a, row) => P f a ∧ RowAll P fields row

theorem RowAll.imp {P Q : (f : Field) → f.Value → Prop}
    (hPQ : ∀ f ∈ fields, ∀ a, P f a → Q f a) {row : Row fields} (h : RowAll P fields row) :
    RowAll Q fields row := by
  induction fields with
  | nil => trivial
  | cons f fields ih =>
    obtain ⟨a, row⟩ := row
    obtain ⟨hf, hfields⟩ := List.forall_mem_cons.mp hPQ
    exact ⟨hf a h.1, ih hfields h.2⟩

theorem RowAll.exists_value {P : (f : Field) → f.Value → Prop} {row : Row fields}
    (h : RowAll P fields row) {f : Field} (hf : f ∈ fields) : ∃ a, P f a := by
  induction fields with
  | nil => exact nomatch hf
  | cons g fields ih =>
    obtain ⟨a, row⟩ := row
    rcases List.mem_cons.mp hf with rfl | hf
    · exact ⟨a, h.1⟩
    · exact ih h.2 hf

/-! ## Objects -/

/-- What is in the slot of a field after some members. -/
def SlotFrom (room : Nat) (seen : List (Except Fault String × Reading)) (f : Field) :
    Option f.Value → Prop
  | some a => ∃ value, OnlyMember seen f.name value ∧ f.codec.decode room value = .ok a
  | none => NoMember seen f.name

/-- **What is in the slots after some members.** -/
def SlotsFrom (room : Nat) (seen : List (Except Fault String × Reading)) :
    (fields : List Field) → Slots fields → Prop
  | [], _ => True
  | f :: fields, (slot, slots) => SlotFrom room seen f slot ∧ SlotsFrom room seen fields slots

theorem slotsFrom_noSlots (room : Nat) (fields : List Field) :
    SlotsFrom room [] fields (noSlots fields) := by
  induction fields with
  | nil => trivial
  | cons f fields ih => exact ⟨nofun, ih⟩

theorem SlotFrom.snoc {f : Field} {slot : Option f.Value} (h : SlotFrom room seen f slot)
    {m : Except Fault String × Reading} (hm : m.1 ≠ .ok f.name) :
    SlotFrom room (seen ++ [m]) f slot := by
  cases slot with
  | none => exact NoMember.snoc h hm
  | some a =>
    obtain ⟨value, honly, hvalue⟩ := h
    exact ⟨value, honly.snoc hm, hvalue⟩

/-- A member whose name no field has changes no slot. -/
theorem SlotsFrom.snoc {slots : Slots fields} (h : SlotsFrom room seen fields slots)
    {m : Except Fault String × Reading} (hm : ∀ f ∈ fields, m.1 ≠ .ok f.name) :
    SlotsFrom room (seen ++ [m]) fields slots := by
  induction fields with
  | nil => trivial
  | cons f fields ih =>
    obtain ⟨slot, slots⟩ := slots
    obtain ⟨hf, hfields⟩ := List.forall_mem_cons.mp hm
    exact ⟨h.1.snoc hf, ih h.2 hfields⟩

theorem decodeMember_eq_none {name : String} {reading : Reading} {slots : Slots fields}
    (h : decodeMember room name reading fields slots = none) : ∀ f ∈ fields, name ≠ f.name := by
  induction fields with
  | nil => exact nofun
  | cons f fields ih =>
    obtain ⟨slot, slots⟩ := slots
    by_cases hname : name = f.name
    · exact nomatch (if_pos hname).symm.trans h
    · change decodeMember room name reading (f :: fields) (.cons slot slots) = none at h
      rw [decodeMember_of_ne hname] at h
      exact List.forall_mem_cons.mpr ⟨hname, ih (Option.map_eq_none_iff.mp h)⟩

/-- **A member that is read fills the slot of its name**, which was empty, and no
other. -/
theorem SlotsFrom.decodeMember (hnames : (fields.map (·.name)).Nodup) {name : String}
    {reading : Reading} {slots slots' : Slots fields} (h : SlotsFrom room seen fields slots)
    (hmember : decodeMember room name reading fields slots = some (.ok slots')) :
    SlotsFrom room (seen ++ [(.ok name, reading)]) fields slots' := by
  induction fields with
  | nil => exact nomatch hmember
  | cons f fields ih =>
    obtain ⟨slot, slots⟩ := slots
    rw [List.map_cons, List.nodup_cons] at hnames
    by_cases hname : name = f.name
    · subst hname
      cases slot with
      | some a => exact nomatch Option.some.inj ((if_pos rfl).symm.trans hmember)
      | none =>
        have hdecode := Option.some.inj (decodeMember_of_eq.symm.trans hmember)
        cases hvalue : f.codec.decode room reading with
        | error e =>
          rw [hvalue] at hdecode
          exact nomatch hdecode
        | ok a =>
          rw [hvalue] at hdecode
          obtain rfl := Except.ok.inj hdecode
          refine ⟨⟨reading, NoMember.onlyMember h.1 reading, hvalue⟩, h.2.snoc fun g hg heq => ?_⟩
          rw [Except.ok.inj heq] at hnames
          exact hnames.1 (List.mem_map_of_mem hg)
    · change Field.decodeMember room name reading (f :: fields) (.cons slot slots) = _ at hmember
      rw [decodeMember_of_ne hname] at hmember
      obtain ⟨outcome, houtcome, hmap⟩ := Option.map_eq_some_iff.mp hmember
      cases outcome with
      | error e => exact nomatch hmap
      | ok slots'' =>
        obtain rfl := Except.ok.inj hmap
        exact ⟨h.1.snoc fun heq => hname (Except.ok.inj heq), ih hnames.2 h.2 houtcome⟩

/-- **Members are read** one after the other. -/
theorem SlotsFrom.decodeMembers (hnames : (fields.map (·.name)).Nodup)
    {slots slots' : Slots fields} (h : SlotsFrom room seen fields slots)
    (hmembers : decodeMembers room fields members slots = .ok slots') :
    SlotsFrom room (seen ++ members) fields slots' := by
  induction members generalizing seen slots with
  | nil =>
    obtain rfl := Except.ok.inj hmembers
    rwa [List.append_nil]
  | cons m members ih =>
    obtain ⟨name, reading⟩ := m
    rw [List.append_cons]
    cases name with
    | error f => exact nomatch hmembers
    | ok name =>
      rw [decodeMembers_cons] at hmembers
      cases hmember : Field.decodeMember room name reading fields slots with
      | none =>
        -- the member is passed over, as far as it can be
        rw [hmember] at hmembers
        have hothers := decodeMember_eq_none hmember
        have hpassed := h.snoc (m := (.ok name, reading)) fun f hf heq =>
          hothers f hf (Except.ok.inj heq)
        cases hstop : reading.stop with
        | some f =>
          rw [hstop] at hmembers
          exact nomatch hmembers
        | none =>
          rw [hstop] at hmembers
          exact ih hpassed hmembers
      | some outcome =>
        rw [hmember] at hmembers
        cases outcome with
        | error e => exact nomatch hmembers
        | ok between => exact ih (h.decodeMember hnames hmember) hmembers

/-- The value of a field is what is in its slot, or else what it is where it is
missing. -/
theorem fillSlots_cons {f : Field} (slot : Option f.Value) (slots : Slots fields) :
    fillSlots (f :: fields) (.cons slot slots)
      = (slot <|> f.absent).elim (.error (.missing f.name)) fun a =>
        (fillSlots fields slots).map (a, ·) := by
  obtain ⟨name, Value, codec, absent⟩ := f
  cases slot with
  | some a => rfl
  | none => cases absent <;> rfl

/-- What a row has been filled with. -/
theorem SlotsFrom.fillSlots {slots : Slots fields} {row : Row fields}
    (h : SlotsFrom room members fields slots) (hrow : fillSlots fields slots = .ok row) :
    RowAll (fun f a => (∃ value, OnlyMember members f.name value ∧
        f.codec.decode room value = .ok a) ∨ (NoMember members f.name ∧ f.absent = some a))
      fields row := by
  induction fields with
  | nil => trivial
  | cons f fields ih =>
    obtain ⟨slot, slots⟩ := slots
    obtain ⟨a, row⟩ := row
    replace hrow := (fillSlots_cons slot slots).symm.trans hrow
    cases hvalue : (slot <|> f.absent) with
    | none =>
      rw [hvalue] at hrow
      exact nomatch hrow
    | some b =>
      rw [hvalue] at hrow
      obtain ⟨rest, hrest, heq⟩ := exists_of_map_eq_ok hrow
      obtain ⟨rfl, rfl⟩ := Prod.mk.inj heq
      refine ⟨?_, ih h.2 hrest⟩
      cases slot with
      | some c =>
        obtain rfl := Option.some.inj hvalue
        exact .inl h.1
      | none => exact .inr ⟨h.1, hvalue⟩

/-! ## Arrays -/

/-- **Items are read place by place**, and there is one for each field. -/
theorem rowAll_decodePositions {expected : String} {index : Nat} {items : List Reading}
    {stop : Option Fault} {row : Row fields}
    (h : decodePositions room false expected index fields items stop = .ok row) :
    stop = none ∧ items.length = fields.length ∧
      RowAll (fun f a => ∃ value, (f, value) ∈ fields.zip items ∧
        f.codec.decode room value = .ok a) fields row := by
  induction fields generalizing items index with
  | nil =>
    cases items with
    | nil =>
      cases stop with
      | none => exact ⟨rfl, rfl, trivial⟩
      | some f => exact nomatch h
    | cons item items => exact nomatch h
  | cons f fields ih =>
    cases items with
    | nil => cases stop <;> exact nomatch h
    | cons item items =>
      obtain ⟨a, row⟩ := row
      obtain ⟨b, hvalue, h⟩ := exists_of_bind_eq_ok h
      obtain ⟨rest, hrest, h⟩ := exists_of_bind_eq_ok h
      obtain ⟨rfl, rfl⟩ := Prod.mk.inj (Except.ok.inj h)
      obtain ⟨hstop, hlength, hall⟩ := ih hrest
      refine ⟨hstop, congrArg (· + 1) hlength, ⟨item, List.mem_cons_self, hvalue⟩, ?_⟩
      exact hall.imp fun g _ c ⟨value, hvalue, hdecode⟩ =>
        ⟨value, List.mem_cons_of_mem _ hvalue, hdecode⟩

end Field

/-! ## Records -/

namespace Reading

/-- **A value that can be a record**: a complete object, or a complete array with
an item for each field. -/
def IsRecord (fields : List Field) : Reading → Prop
  | .object _ stop => stop = none
  | .array items stop => stop = none ∧ items.length = fields.length
  | _ => False

/-- **The value of a field**: that of the only member with its name, or the item at
its place. -/
def FieldValue (reading : Reading) (fields : List Field) (f : Field) (value : Reading) : Prop :=
  match reading with
  | .object members _ => OnlyMember members f.name value
  | .array items _ => (f, value) ∈ fields.zip items
  | _ => False

/-- An object without a member for a field. -/
def Lacks (f : Field) : Reading → Prop
  | .object members _ => NoMember members f.name
  | _ => False

end Reading

/-- **What a record has been read from**: each field from its own value, except one
that may be missing and is. -/
theorem Codec.of_decode_record {name : String} {fields : List Field} {room : Nat}
    {reading : Reading} {row : Field.Row fields} (hnames : (fields.map (·.name)).Nodup)
    (h : (record name fields false).decode room reading = .ok row) :
    reading.IsRecord fields ∧
      Field.RowAll (fun f a => (∃ value, reading.FieldValue fields f value ∧
          f.codec.decode (room - 1) value = .ok a) ∨ (reading.Lacks f ∧ f.absent = some a))
        fields row := by
  cases reading with
  | object members stop =>
    obtain ⟨slots, hslots, h⟩ := exists_of_bind_eq_ok h
    cases stop with
    | some f => exact nomatch h
    | none =>
      have hfrom := (Field.slotsFrom_noSlots (room - 1) fields).decodeMembers hnames hslots
      exact ⟨rfl, hfrom.fillSlots h⟩
  | array items stop =>
    obtain ⟨hstop, hlength, hall⟩ := Field.rowAll_decodePositions h
    exact ⟨⟨hstop, hlength⟩, hall.imp fun _ _ _ hvalue => .inl hvalue⟩
  | absent => exact nomatch h
  | string used stop => exact nomatch h
  | scalar used stop => exact nomatch h

end Academy
