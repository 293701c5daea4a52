import Academy.Proofs.Records.Respelled

/-!
# What a record is refused for

What is added to a record does not matter, and what is in it does: no
member that is known can be there twice, none can be missing that has to
be there, and each must be a value of its field. A word must be one of
those expected and a whole number within its bounds. Where one of these is
not so, an object is refused, whatever else is in it, in whatever order
and with whatever blanks (`Collection.Spoiled`).

Together with what is accepted this says that the known members alone
decide which record is read (`Collection.ofText_known_members`).
-/

namespace Academy

open Reading Spelling

/-! ## Values as they are spelled -/

/-- The value of a numeral that is written as a whole number. -/
def Numeral.integer? (n : Numeral) : Option Int :=
  if n.isWhole then some (if n.negative then -(digitsValue n.whole) else digitsValue n.whole)
  else none

namespace Spelling

/-- **A whole number**, as a numeral without point and exponent. -/
def IsInteger (w : Spelling) (k : Int) : Prop :=
  ∃ (s : List Char) (n : Numeral) (h : n.WrittenAs s),
    w = .literal (.numeral s ⟨n, h⟩) ∧ n.integer? = some k

/-- **A string**, with any escapes. -/
def IsString (w : Spelling) (text : String) : Prop :=
  ∃ l, w = .literal (.string l) ∧ l.used = .ok text

variable {members : List (StringLiteral × Spelling)} {name : String} {w : Spelling}

/-- A member of a name, with its value. -/
def Has (members : List (StringLiteral × Spelling)) (name : String) (w : Spelling) : Prop :=
  ∃ l, (l, w) ∈ members ∧ l.used = .ok name

/-- Two members of one name. -/
def Repeats (members : List (StringLiteral × Spelling)) (name : String) : Prop :=
  ∃ m m', [m, m'].Sublist members ∧ m.1.used = .ok name ∧ m'.1.used = .ok name

/-- No member of a name. -/
def Misses (members : List (StringLiteral × Spelling)) (name : String) : Prop :=
  ∀ m ∈ members, m.1.used ≠ .ok name

theorem Has.mem (h : Has members name w) : (.ok name, w.reading) ∈ memberReadings members := by
  obtain ⟨l, hm, hused⟩ := h
  rw [memberReadings_eq_map, ← hused]
  exact List.mem_map_of_mem hm

theorem Repeats.not_onlyMember (h : Repeats members name) (value : Reading) :
    ¬ OnlyMember (memberReadings members) name value := by
  obtain ⟨m, m', hsub, hm, hm'⟩ := h
  rw [memberReadings_eq_map]
  have hreadings := hsub.map fun m : StringLiteral × Spelling => (m.1.used, m.2.reading)
  exact fun honly => honly.not_sublist (m := (m.1.used, m.2.reading)) hm hm' hreadings

theorem Repeats.not_noMember (h : Repeats members name) :
    ¬ NoMember (memberReadings members) name := by
  obtain ⟨m, m', hsub, hm, -⟩ := h
  exact fun hnone => noMember_memberReadings.mp hnone m (hsub.subset List.mem_cons_self) hm

theorem Misses.not_onlyMember (h : Misses members name) (value : Reading) :
    ¬ OnlyMember (memberReadings members) name value :=
  fun honly => noMember_memberReadings.mpr h _ honly.mem rfl

end Spelling

/-- **A field is read from the member of its name**, if there is one. -/
theorem Field.ReadFrom.decode {f : Field} {room : Nat}
    {members : List (StringLiteral × Spelling)} {a : f.Value} {w : Spelling}
    (h : f.ReadFrom room (memberReadings members) a) (hw : Has members f.name w) :
    f.codec.decode room w.reading = .ok a := by
  rcases h with ⟨value, honly, hdecode⟩ | ⟨hnone, -⟩
  · rwa [honly.eq_of_mem hw.mem]
  · exact absurd rfl (hnone _ hw.mem)

namespace Codec

variable {α : Type} {room : Nat} {w : Spelling}

/-- A word that is read is one of those expected. -/
theorem mem_of_decode_oneOf {words : List (String × α)} {wordOf : α → String} {text : String}
    {a : α} (hw : w.IsString text) (h : (oneOf words wordOf).decode room w.reading = .ok a) :
    text ∈ words.map Prod.fst := by
  obtain ⟨l, rfl, hused⟩ := hw
  change (oneOf words wordOf).decode room (.string l.used none) = .ok a at h
  rw [hused] at h
  change ofWord words text = .ok a at h
  unfold ofWord at h
  split at h
  · next b hb =>
    obtain ⟨before, after, rfl, -⟩ := List.lookup_eq_some_iff.mp hb
    rw [List.map_append]
    exact List.mem_append_right _ List.mem_cons_self
  · exact nomatch h

theorem of_decode_numeral {bound m : Nat} {expected : String} {n : Numeral}
    (h : (natBelow bound expected).decode room (numeralReading n) = .ok m) :
    n.number? = some (.natural m) ∧ m < bound := by
  unfold numeralReading at h
  cases hnumber : n.number? with
  | none =>
    rw [hnumber] at h
    exact nomatch h
  | some number =>
    rw [hnumber] at h
    cases number with
    | natural k =>
      change (if k < bound then Except.ok k else .error _) = Except.ok m at h
      split at h
      · next hk =>
        obtain rfl := Except.ok.inj h
        exact ⟨rfl, hk⟩
      · exact nomatch h
    | negative k => exact nomatch h
    | real x => exact nomatch h

/-- A whole number that is read is within its bounds. -/
theorem lt_of_decode_natBelow {bound m : Nat} {expected : String} {k : Int} (hw : w.IsInteger k)
    (h : (natBelow bound expected).decode room w.reading = .ok m) : 0 ≤ k ∧ k < bound := by
  obtain ⟨s, n, hn, rfl, hk⟩ := hw
  change (natBelow bound expected).decode room (readNumeral s).1 = .ok m at h
  rw [hn.readNumeral] at h
  obtain ⟨hnumber, hm⟩ := of_decode_numeral h
  unfold Numeral.number? at hnumber
  unfold Numeral.integer? at hk
  dsimp only at hnumber
  split at hnumber
  · next hnatural =>
    obtain ⟨hwhole, hsign, -⟩ := hnatural
    rw [if_pos hwhole, if_neg hsign] at hk
    obtain rfl := Option.some.inj hk
    obtain rfl := JsonNumber.natural.inj (Option.some.inj hnumber)
    exact ⟨Int.natCast_nonneg _, Int.ofNat_lt.mpr hm⟩
  · split at hnumber
    · exact nomatch hnumber
    · obtain ⟨x, -, hx⟩ := Option.map_eq_some_iff.mp hnumber
      exact nomatch hx

end Codec

/-! ## Records -/

/-- A tag is read from its only member. -/
theorem Codec.exists_onlyMember_of_decode {α β : Type} {name tag : String} {c : Codec α}
    {forth : α × Unit → Except DecodeError β} {back : β → α × Unit} {room : Nat}
    {inner : List (StringLiteral × Spelling)} {b : β}
    (h : ((record name [.required tag c] false).restrict forth back).decode room
      (Spelling.object inner).reading = .ok b) :
    ∃ value, OnlyMember (memberReadings inner) tag value := by
  obtain ⟨row, hrow, -⟩ := exists_of_bind_eq_ok h
  obtain ⟨value, hwraps, -⟩ := wraps_of_decode hrow
  rcases hwraps with ⟨members, heq, honly⟩ | harray
  · obtain ⟨rfl, -⟩ := Reading.object.inj heq
    exact ⟨value, honly⟩
  · exact nomatch harray

namespace Collection

/-- **What the members of an object are refused for**, whatever else is in it. -/
inductive Spoiled (c : Collection) (members : List (StringLiteral × Spelling)) : Prop
  /-- A known member is there twice. -/
  | repeated {f : Field} : f ∈ c.fields → Repeats members f.name → Spoiled c members
  /-- A member that has to be there is missing. -/
  | missing {f : Field} : f ∈ c.fields → f.absent = none → Misses members f.name →
    Spoiled c members
  /-- A word is none of those expected. -/
  | word {α : Type} {words : List (String × α)} {wordOf : α → String} {name text : String}
    {w : Spelling} : .required name (.oneOf words wordOf) ∈ c.fields → Has members name w →
    w.IsString text → text ∉ words.map Prod.fst → Spoiled c members
  /-- A whole number does not fit 8 bits. -/
  | uint8 {name : String} {w : Spelling} {k : Int} : .required name .uint8 ∈ c.fields →
    Has members name w → w.IsInteger k → ¬ (0 ≤ k ∧ k < 2 ^ 8) → Spoiled c members
  /-- A whole number does not fit 32 bits. -/
  | uint32 {name : String} {w : Spelling} {k : Int} : .required name .uint32 ∈ c.fields →
    Has members name w → w.IsInteger k → ¬ (0 ≤ k ∧ k < 2 ^ 32) → Spoiled c members
  /-- An identifier has its tag twice, or not at all. -/
  | identifier {name : String} {inner : List (StringLiteral × Spelling)} :
    .required name .identifier ∈ c.fields → Has members name (.object inner) →
    Repeats inner identifierTag ∨ Misses inner identifierTag → Spoiled c members
  /-- An instant has its tag twice, or not at all. -/
  | instant {name : String} {inner : List (StringLiteral × Spelling)} :
    .required name .instant ∈ c.fields ∨ .optional name .instant ∈ c.fields →
    Has members name (.object inner) → Repeats inner instantTag ∨ Misses inner instantTag →
    Spoiled c members

/-- Each field of a record that has been read was read from the members. -/
theorem exists_readFrom {c : Collection} {room : Nat}
    {members : List (Except Fault String × Reading)} {r : Dataset.Record Identifier Instant c}
    (h : c.codec.decode room (.object members none) = .ok r) :
    ∀ f ∈ c.fields, ∃ a, f.ReadFrom (room - 1) members a := by
  obtain ⟨name, row, hrow⟩ := exists_row h
  exact fun f hf => (Codec.of_decode_record c.fields_nodup hrow).2.exists_value hf

/-- **No record is read from spoiled members.** -/
theorem Spoiled.decode_ne {c : Collection} {members : List (StringLiteral × Spelling)}
    (h : c.Spoiled members) {room : Nat} (r : Dataset.Record Identifier Instant c) :
    c.codec.decode room (Spelling.object members).reading ≠ .ok r := by
  intro hdecode
  have hfields := exists_readFrom hdecode
  -- a tag that is there twice or not at all has no only member
  have htag : ∀ {inner tag value}, Repeats inner tag ∨ Misses inner tag →
      ¬ OnlyMember (memberReadings inner) tag value :=
    fun h => h.elim (fun h => h.not_onlyMember _) fun h => h.not_onlyMember _
  cases h with
  | repeated hf hrepeats =>
    obtain ⟨a, ⟨value, honly, -⟩ | ⟨hnone, -⟩⟩ := hfields _ hf
    · exact hrepeats.not_onlyMember value honly
    · exact hrepeats.not_noMember hnone
  | missing hf habsent hmisses =>
    obtain ⟨a, ⟨value, honly, -⟩ | ⟨-, hsome⟩⟩ := hfields _ hf
    · exact hmisses.not_onlyMember value honly
    · exact nomatch habsent.symm.trans hsome
  | word hf hhas hstring hword =>
    obtain ⟨a, ha⟩ := hfields _ hf
    exact hword (Codec.mem_of_decode_oneOf hstring (ha.decode hhas))
  | uint8 hf hhas hinteger hrange =>
    obtain ⟨a, ha⟩ := hfields _ hf
    obtain ⟨n, hn, -⟩ := exists_of_map_eq_ok (ha.decode hhas)
    exact hrange (Codec.lt_of_decode_natBelow hinteger hn)
  | uint32 hf hhas hinteger hrange =>
    obtain ⟨a, ha⟩ := hfields _ hf
    obtain ⟨n, hn, -⟩ := exists_of_map_eq_ok (ha.decode hhas)
    exact hrange (Codec.lt_of_decode_natBelow hinteger hn)
  | identifier hf hhas hinner =>
    obtain ⟨a, ha⟩ := hfields _ hf
    obtain ⟨value, honly⟩ := Codec.exists_onlyMember_of_decode (ha.decode hhas)
    exact htag hinner honly
  | instant hf hhas hinner =>
    rcases hf with hf | hf
    · obtain ⟨a, ha⟩ := hfields _ hf
      obtain ⟨value, honly⟩ := Codec.exists_onlyMember_of_decode (ha.decode hhas)
      exact htag hinner honly
    · obtain ⟨a, ha⟩ := hfields _ hf
      obtain ⟨t, ht, -⟩ := exists_of_map_eq_ok (ha.decode hhas)
      obtain ⟨value, honly⟩ := Codec.exists_onlyMember_of_decode ht
      exact htag hinner honly

/-- **The known members decide alone.** A record that a file can hold, with no time
finer than a millisecond, is read from every text of it, of which what is
written for it is one: its members may come in any order, with blanks, and
with members of unknown names that have no parts, in the record and beside
its tags, and those that may be missing may be left out where they are
`null`. And an object is refused, whatever else is in it, in which a known
member is repeated or one is missing that has to be there, a word is not
among those expected, or a whole number does not fit its field. -/
theorem ofText_known_members (c : Collection) :
    (∀ r : Dataset.Record Identifier Instant c, Dataset.Record.Storable c r →
      Dataset.Record.WholeMillis c r →
        c.IsTextOf r (c.codec.text r) ∧ ∀ s, c.IsTextOf r s → c.codec.ofText s = .ok r) ∧
    ∀ members, c.Spoiled members → ∀ s, (Spelling.object members).IsText s →
      ∃ e, c.codec.ofText s = .error e := by
  refine ⟨fun r hr hmillis => ⟨c.isTextOf_text r, fun s hs => ?_⟩, fun members h s hs => ?_⟩
  · exact hs.ofText (c.restores_self hr hmillis)
  · cases hread : c.codec.ofText s with
    | error e => exact ⟨e, rfl⟩
    | ok r =>
      obtain ⟨hdecode, -⟩ := Codec.ofText_eq_ok_iff.mp hread
      rw [hs.readingOfText] at hdecode
      exact absurd hdecode (h.decode_ne r)

/-! ### An enrollment in another text -/

/-- An enrollment that has just begun. -/
def begun : Enrollment Identifier Instant where
  id := ⟨0x65a1f0c2e4b0a1b2c3d4e5f6⟩
  student := ⟨0x65a1f0c2e4b0a1b2c3d4e5f7⟩
  course := ⟨0x65a1f0c2e4b0a1b2c3d4e5f8⟩
  enrolledAt := ⟨1705312800, 250000000, .inl (by decide)⟩
  status := .inProgress
  progress := 10
  finalGrade := none
  lastAccessed := none

/-- A text of it: from the last member to the first, with members that are added to
it and to the tag of its course, with blanks, and without what is `null`. -/
def begunText : List Char :=
  " \x7b \"source\" : 1E3 , \"progress_percent\" : 10 , \"status\" : \"in_progress\" ,".toList ++
  " \"enrolled_at\" : \x7b \"$date\" : \"2024-01-15T10:00:00.250Z\" \x7d ,".toList ++
  " \"course_id\" : \x7b \"note\" : null , \"$oid\" : \"65a1f0c2e4b0a1b2c3d4e5f8\" \x7d ,".toList ++
  " \"student_id\" : \x7b \"$oid\" : \"65a1f0c2e4b0a1b2c3d4e5f7\" \x7d ,".toList ++
  " \"_id\" : \x7b \"$oid\" : \"65a1f0c2e4b0a1b2c3d4e5f6\" \x7d \x7d\n".toList

theorem begun_readable : (enrollments.codec.encode begun).Readable :=
  enrollments.legible begun

theorem writtenAs_thousand :
    Numeral.WrittenAs ⟨false, ['1'], [], some (false, ['3'])⟩ ['1', 'E', '3'] := by
  have hleading : Leading ['1'] :=
    ⟨List.forall_mem_singleton.mpr rfl, List.cons_ne_nil _ _, fun _ _ h => nomatch h⟩
  exact .parts hleading .absent
    (.present (.inr rfl) .absent (List.forall_mem_singleton.mpr rfl) (List.cons_ne_nil _ _))

theorem isTextOf_begunText : enrollments.IsTextOf begun begunText := by
  have hextends : ∀ (known : List String) (members : List (StringLiteral × Spelling))
      (name : String) (l : Literal), name ∉ known →
        Extends known members (members ++ [(StringLiteral.ofString name, literal l)]).reverse :=
    fun known members name l hname => ⟨_, List.forall_mem_singleton.mpr
      ⟨⟨name, StringLiteral.used_ofString name, hname⟩, l, rfl⟩, (List.reverse_perm _).symm⟩
  have hmembers : Json.MembersRespelled enrollments.omissible
      (Field.encodeRow Enrollment.fields (begun.id, begun.student, begun.course, begun.enrolledAt,
        begun.status, begun.progress, begun.finalGrade, begun.lastAccessed, ())) _ :=
    .keep (.same begun_readable.1) <| .keep (.same begun_readable.2.1) <|
    .keep (.tag begun_readable.2.2.1.1 (.inl rfl) (hextends _ _ "note" .null (by decide))) <|
    .keep (.same begun_readable.2.2.2.1) <| .keep (.same begun_readable.2.2.2.2.1) <|
    .keep (.same begun_readable.2.2.2.2.2.1) <| .drop (by decide) <| .drop (by decide) .nil
  have hblank : ∀ c, isJsonBlank c = true → Blank [c] := fun c hc =>
    List.forall_mem_singleton.mpr hc
  refine ⟨_, _, _, rfl, hmembers, hextends _ _ "source" (.numeral _ ⟨_, writtenAs_thousand⟩)
    (by decide), _, ['\n'], ?_, .flatMap (hblank ' ' rfl) _, hblank '\n' rfl⟩
  decide +kernel

/-- The begun enrollment is read from the other text, and an object with two
statuses is refused. -/
theorem ofText_known_members_begun :
    Dataset.Record.Storable enrollments begun ∧ Dataset.Record.WholeMillis enrollments begun ∧
      enrollments.IsTextOf begun begunText ∧ Enrollment.codec.ofText begunText = .ok begun ∧
      ∃ e, Enrollment.codec.ofText
        "\x7b\"status\":\"in_progress\",\"status\":\"dropped\"\x7d".toList = .error e := by
  have hstorable : Dataset.Record.Storable enrollments begun :=
    ⟨List.forall_mem_singleton.mpr (by decide), nofun⟩
  have hmillis : Dataset.Record.WholeMillis enrollments begun :=
    List.forall_mem_singleton.mpr (by decide)
  obtain ⟨haccepted, hrefused⟩ := ofText_known_members .enrollments
  refine ⟨hstorable, hmillis, isTextOf_begunText,
    (haccepted begun hstorable hmillis).2 begunText isTextOf_begunText, ?_⟩
  let status (word : String) : StringLiteral × Spelling :=
    (.ofString "status", .literal (.string (.ofString word)))
  have hspoiled : enrollments.Spoiled [status "in_progress", status "dropped"] := by
    refine .repeated (f := .required "status" EnrollmentStatus.codec) ?_
      ⟨_, _, .refl _, StringLiteral.used_ofString _, StringLiteral.used_ofString _⟩
    simp [fields, Enrollment.fields]
  have htext := (Spelling.object [status "in_progress", status "dropped"]).isText_flatten
  exact hrefused _ hspoiled _ htext

end Collection

end Academy
