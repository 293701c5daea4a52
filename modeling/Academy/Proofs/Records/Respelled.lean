import Academy.Proofs.Records.Members
import Academy.Proofs.Records.Tagged
import Mathlib.Data.List.Nodup

/-!
# The same record in another text

A database writes a record in its own way. The members come in another
order, there are members that nobody here knows, in the record and beside
its tags, what is `null` is left out, and there are blanks. None of this
is to change the record that is read, and none of it does: the texts of a
record (`Collection.IsTextOf`) are read as the record.

For each field there is one member with its name in all these texts, or
none if it was `null` and may be missing, and the value of this member is
decoded as before. That is so for a tag with additions as it is for the
record, since a tag is read as a record is.
-/

namespace Academy

open Reading

/-! ## Additions -/

namespace Spelling

variable {known : List String} {members members' : List (StringLiteral × Spelling)} {name : String}
  {value : Reading}

/-- **A member that is added**: its name is not known, and its value has no parts. -/
def IsAddition (known : List String) (m : StringLiteral × Spelling) : Prop :=
  (∃ name, m.1.used = .ok name ∧ name ∉ known) ∧ ∃ l, m.2 = .literal l

/-- **Members in any order**, with others that are added to them. -/
def Extends (known : List String) (members members' : List (StringLiteral × Spelling)) : Prop :=
  ∃ added, (∀ m ∈ added, IsAddition known m) ∧ (members ++ added).Perm members'

/-- All names of members have a text. -/
def Named (members : List (StringLiteral × Spelling)) : Prop :=
  ∀ m ∈ members, ∃ name, m.1.used = .ok name

theorem Named.passable (h : Named members) : Passable (memberReadings members) := by
  rw [memberReadings_eq_map]
  exact List.forall_mem_map.mpr fun m hm => ⟨h m hm, m.2.reading_stop⟩

theorem noMember_memberReadings :
    NoMember (memberReadings members) name ↔ ∀ m ∈ members, m.1.used ≠ .ok name := by
  rw [memberReadings_eq_map]
  exact List.forall_mem_map

@[simp] theorem memberReadings_append :
    memberReadings (members ++ members') = memberReadings members ++ memberReadings members' := by
  simp only [memberReadings_eq_map, List.map_append]

namespace Extends

theorem refl (known : List String) (members : List (StringLiteral × Spelling)) :
    Extends known members members :=
  ⟨[], nofun, by rw [List.append_nil]⟩

/-- What is read of the members is there, in some order, and what is read besides
has no known name. -/
theorem memberReadings (h : Extends known members members') :
    ∃ added, (Spelling.memberReadings members ++ added).Perm (Spelling.memberReadings members') ∧
      ∀ name ∈ known, NoMember added name := by
  obtain ⟨added, hadded, hperm⟩ := h
  refine ⟨Spelling.memberReadings added, ?_, fun name hname => ?_⟩
  · rw [← memberReadings_append, memberReadings_eq_map, memberReadings_eq_map]
    exact hperm.map _
  · refine noMember_memberReadings.mpr fun m hm heq => ?_
    obtain ⟨⟨other, hother, hunknown⟩, -⟩ := hadded m hm
    obtain rfl := Except.ok.inj (hother.symm.trans heq)
    exact hunknown hname

theorem named (h : Extends known members members') (hnamed : Named members) : Named members' := by
  obtain ⟨added, hadded, hperm⟩ := h
  intro m hm
  rcases List.mem_append.mp (hperm.mem_iff.mpr hm) with hm | hm
  · exact hnamed m hm
  · obtain ⟨⟨name, hname, -⟩, -⟩ := hadded m hm
    exact ⟨name, hname⟩

/-- **The only member of a known name remains the only one.** -/
theorem onlyMember (h : Extends known members members') (hname : name ∈ known)
    (honly : OnlyMember (Spelling.memberReadings members) name value) :
    OnlyMember (Spelling.memberReadings members') name value := by
  obtain ⟨added, hperm, hadded⟩ := h.memberReadings
  exact (honly.append (hadded name hname)).perm hperm

theorem noMember (h : Extends known members members') (hname : name ∈ known)
    (hnone : NoMember (Spelling.memberReadings members) name) :
    NoMember (Spelling.memberReadings members') name := by
  obtain ⟨added, hperm, hadded⟩ := h.memberReadings
  exact fun m hm => hnone.append (hadded name hname) m (hperm.mem_iff.mpr hm)

theorem readFrom (h : Extends known members members') {f : Field} (hname : f.name ∈ known)
    {room : Nat} {a : f.Value} (ha : f.ReadFrom room (Spelling.memberReadings members) a) :
    f.ReadFrom room (Spelling.memberReadings members') a := by
  rcases ha with ⟨value, honly, hdecode⟩ | ⟨hnone, habsent⟩
  · exact .inl ⟨value, h.onlyMember hname honly, hdecode⟩
  · exact .inr ⟨h.noMember hname hnone, habsent⟩

end Extends

end Spelling

open Spelling

/-! ## Values and members in another text -/

namespace Json

/-- **How a value may be spelled**: as it is written, and a tag also with members
that are added to it. -/
inductive Respelled : Json → Spelling → Prop
  | same {j : Json} (hj : j.Readable) : Respelled j (j.spelling hj)
  | tag {tag : String} {value : Json} (hvalue : value.Readable)
    {members : List (StringLiteral × Spelling)} : IsTag tag →
    Extends [tag] [(.ofString tag, value.spelling hvalue)] members →
    Respelled (.object [(tag, value)]) (.object members)

/-- **How members may be spelled**: each with its name and its value. One that may
be missing can be left out if it is `null`. -/
inductive MembersRespelled (omissible : List String) :
    List (String × Json) → List (StringLiteral × Spelling) → Prop
  | nil : MembersRespelled omissible [] []
  | keep {name : String} {value : Json} {w : Spelling} {members : List (String × Json)}
    {spelled : List (StringLiteral × Spelling)} : value.Respelled w →
    MembersRespelled omissible members spelled →
    MembersRespelled omissible ((name, value) :: members) ((.ofString name, w) :: spelled)
  | drop {name : String} {members : List (String × Json)}
    {spelled : List (StringLiteral × Spelling)} : name ∈ omissible →
    MembersRespelled omissible members spelled →
    MembersRespelled omissible ((name, .null) :: members) spelled

variable {omissible : List String} {members : List (String × Json)}
  {spelled : List (StringLiteral × Spelling)}

/-- Members as they are written. -/
theorem membersRespelled_memberSpellings (h : MembersReadable members) :
    MembersRespelled omissible members (memberSpellings members h) := by
  induction members with
  | nil => exact .nil
  | cons m members ih => exact .keep (.same h.1) (ih h.2)

theorem MembersRespelled.exists_name (h : MembersRespelled omissible members spelled) :
    ∀ m ∈ spelled, ∃ name ∈ members.map Prod.fst, m.1.used = .ok name := by
  induction h with
  | nil => exact nofun
  | keep _ _ ih =>
    refine List.forall_mem_cons.mpr ⟨⟨_, List.mem_cons_self, StringLiteral.used_ofString _⟩, ?_⟩
    intro m hm
    obtain ⟨name, hname, hused⟩ := ih m hm
    exact ⟨name, List.mem_cons_of_mem _ hname, hused⟩
  | drop _ _ ih =>
    intro m hm
    obtain ⟨name, hname, hused⟩ := ih m hm
    exact ⟨name, List.mem_cons_of_mem _ hname, hused⟩

theorem MembersRespelled.named (h : MembersRespelled omissible members spelled) :
    Named spelled := by
  intro m hm
  obtain ⟨name, -, hused⟩ := h.exists_name m hm
  exact ⟨name, hused⟩

/-- **A value is decoded alike however it is spelled.** -/
theorem Respelled.decode {α : Type} {c : Codec α} {j : Json} {w : Spelling} (h : j.Respelled w)
    (hc : ∀ tag, IsTag tag → c.IgnoresAdditions tag) {room : Nat} {a : α}
    (hdecode : c.decode room j.reading = .ok a) : c.decode room w.reading = .ok a := by
  cases h with
  | same hj => rwa [reading_spelling]
  | @tag tag value hvalue members htag hextends =>
    have hnamed : Named [(StringLiteral.ofString tag, value.spelling hvalue)] :=
      List.forall_mem_singleton.mpr ⟨tag, StringLiteral.used_ofString tag⟩
    have honly : OnlyMember (Spelling.memberReadings
        [(StringLiteral.ofString tag, value.spelling hvalue)]) tag value.reading := by
      refine ⟨[], [], ?_, nofun⟩
      show [((StringLiteral.ofString tag).used, (value.spelling hvalue).reading)] = _
      simp [reading_spelling]
    exact hc tag htag (hextends.named hnamed).passable
      (hextends.onlyMember List.mem_cons_self honly) hdecode

end Json

open Json

/-! ## Fields -/

namespace Field

variable {fields : List Field} {room : Nat} {omissible : List String}

@[simp] theorem map_fst_encodeRow (fields : List Field) (row : Row fields) :
    (encodeRow fields row).map Prod.fst = fields.map (·.name) := by
  induction fields with
  | nil => rfl
  | cons f fields ih =>
    obtain ⟨a, row⟩ := row
    exact congrArg (f.name :: ·) (ih row)

/-- **A field that can be left out**: what is read where it is `null` is also what
it is where it is missing. -/
def Omissible (f : Field) : Prop :=
  ∀ room a, f.codec.decode room (.scalar (.ok .null) none) = .ok a → f.absent = some a

/-- For a field that has to be there nothing is asked. -/
theorem omissible_of_required {f : Field} (hf : f.absent.isNone) (hsome : f.absent.isSome) :
    f.Omissible := by
  rw [Option.isNone_iff_eq_none.mp hf] at hsome
  exact absurd hsome Bool.false_ne_true

/-- A member of another name does not matter to a field. -/
theorem ReadFrom.cons {f : Field} {a : f.Value} {m : Except Fault String × Reading}
    {members : List (Except Fault String × Reading)} (h : f.ReadFrom room members a)
    (hm : m.1 ≠ .ok f.name) : f.ReadFrom room (m :: members) a := by
  have hnone : NoMember [m] f.name := List.forall_mem_singleton.mpr hm
  rcases h with ⟨value, honly, hdecode⟩ | ⟨hmembers, habsent⟩
  · exact .inl ⟨value, (honly.append hnone).perm (List.perm_append_singleton m members), hdecode⟩
  · exact .inr ⟨NoMember.append hnone hmembers, habsent⟩

/-- **The fields of a record are read from its members however these are spelled.** -/
theorem rowAll_of_respelled (hnames : (fields.map (·.name)).Nodup)
    (htags : ∀ f ∈ fields, ∀ tag, IsTag tag → f.codec.IgnoresAdditions tag)
    (homissible : ∀ f ∈ fields, f.name ∈ omissible → f.Omissible) {row row' : Row fields}
    (hrow : RowRelated (fun f a b => f.codec.decode room (f.codec.encode a).reading = .ok b)
      fields row row') {spelled : List (StringLiteral × Spelling)}
    (h : MembersRespelled omissible (encodeRow fields row) spelled) :
    RowAll (ReadFrom room (Spelling.memberReadings spelled)) fields row' := by
  induction fields generalizing spelled with
  | nil => trivial
  | cons f fields ih =>
    obtain ⟨a, row⟩ := row
    obtain ⟨b, row'⟩ := row'
    obtain ⟨hf, hfields⟩ := List.nodup_cons.mp hnames
    obtain ⟨htag, htags⟩ := List.forall_mem_cons.mp htags
    obtain ⟨hfirst, homissible⟩ := List.forall_mem_cons.mp homissible
    have hother : ∀ {spelled}, MembersRespelled omissible (encodeRow fields row) spelled →
        NoMember (Spelling.memberReadings spelled) f.name := by
      intro spelled h
      refine noMember_memberReadings.mpr fun m hm heq => ?_
      obtain ⟨name, hname, hused⟩ := h.exists_name m hm
      obtain rfl := Except.ok.inj (hused.symm.trans heq)
      rw [map_fst_encodeRow] at hname
      exact hf hname
    change MembersRespelled omissible ((f.name, f.codec.encode a) :: encodeRow fields row) spelled
      at h
    generalize hencode : f.codec.encode a = j at h
    cases h with
    | @keep _ _ w _ spelled hvalue hrest =>
      have hused := StringLiteral.used_ofString f.name
      refine ⟨.inl ⟨w.reading, ⟨[], _, ?_, hother hrest⟩, ?_⟩, ?_⟩
      · show (_, _) :: _ = _
        rw [hused]
        rfl
      · exact hvalue.decode htag (hencode ▸ hrow.1)
      · refine (ih hfields htags homissible hrow.2 hrest).imp fun g hg c hc => hc.cons ?_
        intro heq
        have hsame : f.name = g.name := Except.ok.inj (hused.symm.trans heq)
        exact hf (List.mem_map.mpr ⟨g, hg, hsame.symm⟩)
    | drop hname hrest =>
      refine ⟨.inr ⟨hother hrest, hfirst hname room b ?_⟩, ih hfields htags homissible hrow.2 hrest⟩
      have hdecode : f.codec.decode room (f.codec.encode a).reading = .ok b := hrow.1
      rwa [hencode] at hdecode

end Field

/-! ## Records -/

open Codec in
/-- **No field minds what is added to a tag.** -/
theorem Codec.OfField.ignoresAdditions {α : Type} {c : Codec α} (h : c.OfField) :
    ∀ tag, IsTag tag → c.IgnoresAdditions tag := by
  intro tag htag
  induction h with
  | string => exact ignoresAdditions_string
  | identifier => exact ignoresAdditions_restrict ignoresAdditions_record
  | instant => exact ignoresAdditions_restrict ignoresAdditions_record
  | uint8 => exact ignoresAdditions_correspond ignoresAdditions_natBelow
  | uint32 => exact ignoresAdditions_correspond ignoresAdditions_natBelow
  | binary64 => exact ignoresAdditions_binary64
  | strings => exact ignoresAdditions_list
  | words hidentifier hinstant =>
    rcases htag with rfl | rfl
    · exact ignoresAdditions_oneOf hidentifier
    · exact ignoresAdditions_oneOf hinstant
  | nullable _ ih => exact ignoresAdditions_nullable ih

namespace Collection

/-- The names of the members that may be missing. -/
def omissible (c : Collection) : List String :=
  (c.fields.filter (·.absent.isSome)).map (·.name)

example : enrollments.omissible = ["final_grade", "last_accessed"] := rfl

/-- A member that may be missing is then as if it was `null`. -/
theorem omissible_of_mem (c : Collection) :
    ∀ f ∈ c.fields, f.name ∈ c.omissible → f.Omissible := by
  have hkinds : ∀ f ∈ c.fields, f.absent.isSome → f.Omissible := by
    have hrequired : ∀ {fields : List Field}, (fields.all (·.absent.isNone)) = true →
        ∀ f ∈ fields, f.absent.isSome → f.Omissible := fun hall f hf =>
      Field.omissible_of_required (List.all_eq_true.mp hall f hf)
    cases c with
    | enrollments =>
      simp only [fields, Enrollment.fields, List.forall_mem_cons]
      exact ⟨Field.omissible_of_required rfl, Field.omissible_of_required rfl,
        Field.omissible_of_required rfl, Field.omissible_of_required rfl,
        Field.omissible_of_required rfl, Field.omissible_of_required rfl,
        fun _ _ _ h => congrArg some (Except.ok.inj h),
        fun _ _ _ h => congrArg some (Except.ok.inj h), List.forall_mem_nil _⟩
    | _ => exact hrequired rfl
  intro f hf hname
  obtain ⟨g, hg, heq⟩ := List.mem_map.mp hname
  obtain ⟨hg, hsome⟩ := List.mem_filter.mp hg
  obtain rfl := List.inj_on_of_nodup_map c.fields_nodup hg hf heq
  exact hkinds g hg hsome

/-- **The texts of a record**: its members as they may be spelled, in any order and
with others, and with any blanks. -/
def IsTextOf (c : Collection) (r : Dataset.Record Identifier Instant c) (s : List Char) : Prop :=
  ∃ members spelled members', c.codec.encode r = .object members ∧
    MembersRespelled c.omissible members spelled ∧
    Extends (c.fields.map (·.name)) spelled members' ∧ (Spelling.object members').IsText s

/-- What is written for a record is one of its texts. -/
theorem isTextOf_text (c : Collection) (r : Dataset.Record Identifier Instant c) :
    c.IsTextOf r (c.codec.text r) := by
  obtain ⟨name, forth, back, heq⟩ := c.exists_codec_eq
  have hencode : c.codec.encode r = .object (Field.encodeRow c.fields (back r)) := by
    rw [heq]
    rfl
  have hreadable : (Json.object (Field.encodeRow c.fields (back r))).Readable :=
    hencode ▸ c.legible r
  refine ⟨_, _, _, hencode, membersRespelled_memberSpellings hreadable, .refl _ _, ?_⟩
  rw [Codec.text, hencode]
  exact isText_spelling hreadable

/-- **Every text of a record is read as the record**, if the record can be written
and read at all. -/
theorem IsTextOf.ofText {c : Collection} {r : Dataset.Record Identifier Instant c} {s : List Char}
    (h : c.IsTextOf r s) (hr : c.codec.Restores r r) : c.codec.ofText s = .ok r := by
  obtain ⟨members, spelled, members', hencode, hspelled, hextends, htext⟩ := h
  obtain ⟨name, forth, back, heq⟩ := c.exists_codec_eq
  have hdecode := hr.decode Reading.nestingLimit
  rw [Codec.ofText_eq_ok_iff, htext.readingOfText, and_iff_left rfl]
  rw [heq] at hencode hdecode ⊢
  obtain rfl := Json.object.inj hencode
  -- each field is read from what has been written for it
  obtain ⟨row, hrow, hforth⟩ := exists_of_map_eq_ok hdecode
  have hreread := (Codec.decode_record c.fields_nodup (back r)).symm.trans hrow
  have hfields := Field.rowAll_of_respelled c.fields_nodup
    (fun f hf => (c.ofField f hf).ignoresAdditions) c.omissible_of_mem
    (Field.rereadRow_eq_ok_iff.mp hreread) hspelled
  have hrecord : (Codec.record name c.fields false).decode Reading.nestingLimit
      (Spelling.object members').reading = .ok row :=
    (Codec.decode_record_iff c.fields_nodup (hextends.named hspelled.named).passable).mpr
      (hfields.imp fun f hf a ha => hextends.readFrom (List.mem_map_of_mem hf) ha)
  show ((Codec.record name c.fields false).decode _ _).map forth = _
  rw [hrecord]
  exact congrArg _ hforth

end Collection

end Academy
