import Academy.Proofs.Records.Accepted

/-!
# What is in an object decides, and not where it is

A record that is read from an object has each of its fields from the only
member of the field's name, or from none (`Codec.of_decode_record`). This
is all that is asked of an object: if it is so, a record is read from it,
in whatever order the members come and whatever other members there are,
as long as those can be passed over (`Codec.decode_record_iff`).

That the members are read in order does not matter then, since no member
can be refused: it would have to be the second of its name, or be no value
of its field.
-/

namespace Academy

/-! ## Members of a name -/

namespace Reading

variable {members members' seen rest : List (Except Fault String × Reading)} {name : String}
  {value other : Reading} {m m' : Except Fault String × Reading}

/-- **Members that can be read to their end**: their names have a text, and
nothing stops the reading of their values. -/
def Passable (members : List (Except Fault String × Reading)) : Prop :=
  ∀ m ∈ members, (∃ name, m.1 = .ok name) ∧ m.2.stop = none

theorem OnlyMember.mem (h : OnlyMember members name value) : (.ok name, value) ∈ members := by
  obtain ⟨before, after, rfl, -⟩ := h
  exact List.mem_append_right _ List.mem_cons_self

/-- There are no two members of the name. -/
theorem OnlyMember.not_sublist (h : OnlyMember members name value) (hm : m.1 = .ok name)
    (hm' : m'.1 = .ok name) : ¬ [m, m'].Sublist members := by
  obtain ⟨before, after, rfl, hothers⟩ := h
  obtain ⟨hbefore, hafter⟩ := List.forall_mem_append.mp hothers
  intro hsub
  obtain ⟨front, back, heq, hfront, hback⟩ := List.sublist_append_iff.mp hsub
  cases front with
  | cons x front =>
    obtain rfl := (List.cons.inj heq).1
    exact hbefore _ (hfront.subset List.mem_cons_self) hm
  | nil =>
    -- the first may be the member itself, and the second comes after it
    obtain rfl : [m, m'] = back := heq
    cases hback with
    | cons _ hback => exact hafter _ (hback.subset List.mem_cons_self) hm
    | cons_cons _ hback => exact hafter _ (hback.subset List.mem_cons_self) hm'

theorem OnlyMember.eq_of_mem (h : OnlyMember members name value)
    (hm : (.ok name, other) ∈ members) : other = value := by
  obtain ⟨before, after, rfl, hothers⟩ := h
  rcases List.mem_append.mp hm with hm | hm
  · exact absurd rfl (hothers _ (List.mem_append_left _ hm))
  rcases List.mem_cons.mp hm with heq | hm
  · exact (Prod.mk.inj heq).2
  · exact absurd rfl (hothers _ (List.mem_append_right _ hm))

/-- **Where the members are does not matter.** -/
theorem OnlyMember.perm (h : OnlyMember members name value) (hperm : members.Perm members') :
    OnlyMember members' name value := by
  obtain ⟨before, after, rfl, hothers⟩ := h
  obtain ⟨before', after', rfl⟩ := List.append_of_mem (hperm.subset
    (List.mem_append_right _ List.mem_cons_self))
  have hrest := (List.perm_middle.symm.trans (hperm.trans List.perm_middle)).cons_inv
  exact ⟨before', after', rfl, fun m hm => hothers m (hrest.mem_iff.mpr hm)⟩

theorem NoMember.append (h : NoMember members name) (h' : NoMember members' name) :
    NoMember (members ++ members') name :=
  List.forall_mem_append.mpr ⟨h, h'⟩

theorem OnlyMember.append (h : OnlyMember members name value) (h' : NoMember members' name) :
    OnlyMember (members ++ members') name value := by
  obtain ⟨before, after, rfl, hothers⟩ := h
  refine ⟨before, after ++ members', by rw [List.append_assoc, List.cons_append], ?_⟩
  rw [← List.append_assoc]
  exact NoMember.append hothers h'

end Reading

open Reading

/-! ## Reading an object -/

namespace Field

variable {fields : List Field} {room : Nat}
  {seen rest members : List (Except Fault String × Reading)}

/-- **What the value of a field is read from** in an object: the only member of
its name, or none where it may be missing. -/
def ReadFrom (room : Nat) (members : List (Except Fault String × Reading)) (f : Field)
    (a : f.Value) : Prop :=
  (∃ value, OnlyMember members f.name value ∧ f.codec.decode room value = .ok a) ∨
    (NoMember members f.name ∧ f.absent = some a)

/-- **Why a member is refused**: its field has been read before, or it is no value
of its field. -/
theorem SlotsFrom.of_decodeMember_error {name : String} {reading : Reading} {e : DecodeError}
    {slots : Slots fields} (h : SlotsFrom room seen fields slots)
    (hmember : Field.decodeMember room name reading fields slots = some (.error e)) :
    ∃ f ∈ fields, name = f.name ∧
      ((∃ value, OnlyMember seen f.name value) ∨ f.codec.decode room reading = .error e) := by
  induction fields with
  | nil => exact nomatch hmember
  | cons f fields ih =>
    obtain ⟨slot, slots⟩ := slots
    by_cases hname : name = f.name
    · refine ⟨f, List.mem_cons_self, hname, ?_⟩
      subst hname
      cases slot with
      | some a =>
        obtain ⟨value, honly, -⟩ := h.1
        exact .inl ⟨value, honly⟩
      | none =>
        have hdecode := Option.some.inj (decodeMember_of_eq.symm.trans hmember)
        cases hvalue : f.codec.decode room reading with
        | ok a =>
          rw [hvalue] at hdecode
          exact nomatch hdecode
        | error e' =>
          rw [hvalue] at hdecode
          exact .inr (congrArg _ (Except.error.inj hdecode))
    · change Field.decodeMember room name reading (f :: fields) (.cons slot slots) = _ at hmember
      rw [decodeMember_of_ne hname] at hmember
      obtain ⟨outcome, houtcome, hmap⟩ := Option.map_eq_some_iff.mp hmember
      cases outcome with
      | ok slots' => exact nomatch hmap
      | error e' =>
        obtain rfl := Except.error.inj hmap
        obtain ⟨g, hg, hfound⟩ := ih h.2 houtcome
        exact ⟨g, List.mem_cons_of_mem _ hg, hfound⟩

/-- **No member is refused** of an object from which each field can be read. -/
theorem SlotsFrom.exists_decodeMembers (hnames : (fields.map (·.name)).Nodup)
    {slots : Slots fields} (h : SlotsFrom room seen fields slots) (hpass : Passable rest)
    (hfields : ∀ f ∈ fields, ∃ a, f.ReadFrom room (seen ++ rest) a) :
    ∃ slots', Field.decodeMembers room fields rest slots = .ok slots' := by
  induction rest generalizing seen slots with
  | nil => exact ⟨slots, rfl⟩
  | cons m rest ih =>
    obtain ⟨name, reading⟩ := m
    obtain ⟨⟨⟨name, rfl⟩, hstop⟩, hrest⟩ := List.forall_mem_cons.mp hpass
    have hfields' : ∀ f ∈ fields, ∃ a,
        f.ReadFrom room (seen ++ [(.ok name, reading)] ++ rest) a := by
      rwa [List.append_assoc]
    rw [decodeMembers_cons]
    cases hmember : Field.decodeMember room name reading fields slots with
    | none =>
      have hothers := decodeMember_eq_none hmember
      dsimp only at hstop ⊢
      rw [hstop]
      exact ih (h.snoc fun f hf heq => hothers f hf (Except.ok.inj heq)) hrest hfields'
    | some outcome =>
      cases outcome with
      | ok between => exact ih (h.decodeMember hnames hmember) hrest hfields'
      | error e =>
        obtain ⟨f, hf, rfl, hrefused⟩ := h.of_decodeMember_error hmember
        obtain ⟨a, ⟨value, honly, hdecode⟩ | ⟨hnone, -⟩⟩ := hfields f hf
        · obtain rfl := honly.eq_of_mem (List.mem_append_right _ List.mem_cons_self)
          rcases hrefused with ⟨before, hbefore⟩ | herror
          · exact absurd ((List.singleton_sublist.mpr hbefore.mem).append
              (List.singleton_sublist.mpr List.mem_cons_self)) (honly.not_sublist rfl rfl)
          · exact nomatch hdecode.symm.trans herror
        · exact absurd rfl (hnone _ (List.mem_append_right _ List.mem_cons_self))

/-- The slots are filled with what the fields are read from. -/
theorem SlotsFrom.fillSlots_eq {slots : Slots fields} {row : Row fields}
    (h : SlotsFrom room members fields slots) (hrow : RowAll (ReadFrom room members) fields row) :
    Field.fillSlots fields slots = .ok row := by
  induction fields with
  | nil => rfl
  | cons f fields ih =>
    obtain ⟨slot, slots⟩ := slots
    obtain ⟨a, row⟩ := row
    have hslot : (slot <|> f.absent) = some a := by
      cases slot with
      | some b =>
        obtain ⟨value, honly, hvalue⟩ := h.1
        rcases hrow.1 with ⟨value', honly', hvalue'⟩ | ⟨hnone, -⟩
        · rw [honly'.eq_of_mem honly.mem, hvalue'] at hvalue
          exact congrArg some (Except.ok.inj hvalue).symm
        · exact absurd rfl (hnone _ honly.mem)
      | none =>
        rcases hrow.1 with ⟨value', honly', -⟩ | ⟨-, habsent⟩
        · exact absurd rfl (h.1 _ honly'.mem)
        · exact habsent
    refine (fillSlots_cons slot slots).trans ?_
    rw [hslot, Option.elim_some, ih h.2 hrow.2]
    rfl

end Field

namespace Codec

variable {α β : Type} {name tag : String} {fields : List Field} {room : Nat}
  {members : List (Except Fault String × Reading)}

/-- **When a record is read from an object**: exactly if each field is read from
the only member of its name, or from none where it may be missing. -/
theorem decode_record_iff {row : Field.Row fields} (hnames : (fields.map (·.name)).Nodup)
    (hpass : Passable members) :
    (record name fields false).decode room (.object members none) = .ok row ↔
      Field.RowAll (Field.ReadFrom (room - 1) members) fields row := by
  refine ⟨fun h => (of_decode_record hnames h).2, fun h => ?_⟩
  obtain ⟨slots, hslots⟩ := (Field.slotsFrom_noSlots (room - 1) fields).exists_decodeMembers hnames
    hpass fun f hf => h.exists_value hf
  have hfrom := (Field.slotsFrom_noSlots (room - 1) fields).decodeMembers hnames hslots
  show (do
    let slots ← Field.decodeMembers (room - 1) fields members (Field.noSlots fields)
    Field.fillSlots fields slots) = _
  rw [hslots]
  exact hfrom.fillSlots_eq h

/-! ## Tags -/

/-- A tag is read from the only member of its name. -/
theorem decode_tagged_iff {c : Codec α} {row : Field.Row [.required tag c]}
    (hpass : Passable members) :
    (record name [.required tag c] false).decode room (.object members none) = .ok row ↔
      ∃ value, OnlyMember members tag value ∧ c.decode (room - 1) value = .ok row.1 := by
  have hnames : ([Field.required tag c].map (·.name)).Nodup := List.pairwise_singleton _ tag
  rw [decode_record_iff hnames hpass]
  refine ⟨fun h => h.1.resolve_right fun habsent => ?_, fun h => ⟨.inl h, trivial⟩⟩
  exact nomatch habsent.2

/-- **A codec for which a tag stays a tag** when members of other names are added
to it. -/
def IgnoresAdditions (c : Codec α) (tag : String) : Prop :=
  ∀ {room : Nat} {value : Reading} {members : List (Except Fault String × Reading)} {a : α},
    Passable members → OnlyMember members tag value →
      c.decode room (.object [(.ok tag, value)] none) = .ok a →
        c.decode room (.object members none) = .ok a

theorem ignoresAdditions_record {c : Codec α} {other : String} :
    (record name [.required other c] false).IgnoresAdditions tag := by
  intro room value members row hpass honly h
  have hsingle : Passable [(.ok tag, value)] :=
    List.forall_mem_singleton.mpr (hpass _ honly.mem)
  obtain ⟨value', honly', hdecode⟩ := (decode_tagged_iff hsingle).mp h
  -- the only member of the tag is the one that the tag was read from
  obtain ⟨htag, rfl⟩ := Prod.mk.inj (List.mem_singleton.mp honly'.mem)
  obtain rfl := Except.ok.inj htag
  exact (decode_tagged_iff hpass).mpr ⟨_, honly, hdecode⟩

theorem ignoresAdditions_restrict {c : Codec α} {forth : α → Except DecodeError β} {back : β → α}
    (hc : c.IgnoresAdditions tag) : (c.restrict forth back).IgnoresAdditions tag := by
  intro room value members b hpass honly h
  obtain ⟨a, ha, hb⟩ := exists_of_bind_eq_ok h
  show (c.decode room (.object members none)).bind forth = _
  rw [hc hpass honly ha]
  exact hb

theorem ignoresAdditions_correspond {c : Codec α} {forth : α → β} {back : β → α}
    (hc : c.IgnoresAdditions tag) : (c.correspond forth back).IgnoresAdditions tag := by
  intro room value members b hpass honly h
  obtain ⟨a, ha, hb⟩ := exists_of_map_eq_ok h
  show (c.decode room (.object members none)).map forth = _
  rw [hc hpass honly ha]
  exact congrArg _ hb

theorem ignoresAdditions_nullable {c : Codec α} (hc : c.IgnoresAdditions tag) :
    c.nullable.IgnoresAdditions tag := by
  intro room value members a hpass honly h
  obtain ⟨b, hb, rfl⟩ := exists_of_map_eq_ok h
  show (c.decode room (.object members none)).map some = _
  rw [hc hpass honly hb]
  rfl

/-! The codecs that take no object at all, or none with a tag. -/

theorem ignoresAdditions_string : string.IgnoresAdditions tag :=
  fun _ _ h => nomatch h

theorem ignoresAdditions_natBelow {bound : Nat} {expected : String} :
    (natBelow bound expected).IgnoresAdditions tag :=
  fun _ _ h => nomatch h

theorem ignoresAdditions_binary64 : binary64.IgnoresAdditions tag :=
  fun _ _ h => nomatch h

theorem ignoresAdditions_list {c : Codec α} : c.list.IgnoresAdditions tag :=
  fun _ _ h => nomatch h

theorem ignoresAdditions_oneOf {words : List (String × α)} {wordOf : α → String}
    (hword : words.lookup tag = none) : (oneOf words wordOf).IgnoresAdditions tag := by
  intro room value members a _ _ h
  obtain ⟨b, hb, -⟩ := exists_of_bind_eq_ok h
  rw [ofWord, hword] at hb
  cases hb

end Codec

end Academy
