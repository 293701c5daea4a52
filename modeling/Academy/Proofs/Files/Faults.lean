import Academy.Proofs.Files.Dataset
import Academy.Proofs.Generation.Stages
import Academy.Proofs.Records.Rereading

/-!
# The first bad line is what is reported

A file is any bytes. How they are cut into lines is said here without
reference to the cutting (`CutInto`): a line has no line feed in it, and is
ended by a line feed, with a carriage return before it that is not part of
the line, or by the end of the file. There is one way only to cut bytes
like that, and the reader goes this way.

What a line comes to depends on the line alone. So the records of a file
are those of its lines, and where there is a bad line, the first one is
told with its number, in which blank lines count. That a carriage return
is blank and a line feed ends every line but the last is all that is needed
for the two laws which users rely on: blank lines can be put in and taken
out, and files can be put one behind the other.
-/

namespace Academy

/-! ## Cutting bytes into lines -/

/-- **Bytes and the lines that they are cut into.** -/
inductive CutInto : List UInt8 → List (List UInt8) → Prop
  /-- No bytes are no line. -/
  | nothing : CutInto [] []
  /-- The last line can be ended by the end of the bytes. -/
  | unended {line : List UInt8} : line ≠ [] → 0x0A ∉ line → CutInto line [line]
  /-- A line is ended by a line feed. -/
  | ended {line bytes : List UInt8} {lines : List (List UInt8)} : 0x0A ∉ line →
    line.getLast? ≠ some 0x0D → CutInto bytes lines → CutInto (line ++ 0x0A :: bytes) (line :: lines)
  /-- A line is ended by a carriage return and a line feed. -/
  | endedByReturn {line bytes : List UInt8} {lines : List (List UInt8)} : 0x0A ∉ line →
    CutInto bytes lines → CutInto (line ++ 0x0D :: 0x0A :: bytes) (line :: lines)

/-- A line that is ended. -/
theorem physicalLines_ended {line : List UInt8} (h : 0x0A ∉ line) (bytes : List UInt8) :
    physicalLines (line ++ 0x0A :: bytes)
      = (withoutReturn line.reverse).reverse :: physicalLines bytes := by
  unfold physicalLines
  rw [linesAfter_append h, List.append_nil, linesAfter, if_pos rfl]

theorem withoutReturn_reverse {line : List UInt8} (h : line.getLast? ≠ some 0x0D) :
    withoutReturn line.reverse = line.reverse := by
  rw [← List.head?_reverse] at h
  unfold withoutReturn
  split
  · next hreturn =>
    rw [hreturn] at h
    exact absurd rfl h
  · rfl

/-- Bytes are cut from the beginning, where `line` has been read in reverse. -/
theorem cutInto_linesAfter {line : List UInt8} (hline : 0x0A ∉ line) (bytes : List UInt8) :
    CutInto (line.reverse ++ bytes) (linesAfter line bytes) := by
  have hreverse : ∀ {line : List UInt8}, 0x0A ∉ line → 0x0A ∉ line.reverse :=
    fun h => mt List.mem_reverse.mp h
  induction bytes generalizing line with
  | nil =>
    rw [List.append_nil, linesAfter]
    split
    · next hnil =>
      rw [List.isEmpty_iff.mp hnil]
      exact .nothing
    · next hcons =>
      exact .unended (mt List.reverse_eq_nil_iff.mp (mt List.isEmpty_iff.mpr hcons)) (hreverse hline)
  | cons b bytes ih =>
    rw [linesAfter]
    split
    · next hfeed =>
      subst hfeed
      have hrest : CutInto bytes (linesAfter [] bytes) := ih List.not_mem_nil
      unfold withoutReturn
      split
      · next line =>
        rw [List.reverse_cons, List.append_assoc]
        exact .endedByReturn (hreverse fun h => hline (List.mem_cons_of_mem _ h)) hrest
      · next hnoReturn =>
        refine .ended (hreverse hline) ?_ hrest
        rw [List.getLast?_reverse]
        intro hhead
        obtain ⟨rest, rfl⟩ := List.head?_eq_some_iff.mp hhead
        exact hnoReturn rest rfl
    · next hfeed =>
      have hmore : 0x0A ∉ b :: line := fun h => (List.mem_cons.mp h).elim
        (fun heq => hfeed heq.symm) hline
      have hrest := ih hmore
      rwa [List.reverse_cons, List.append_assoc] at hrest

/-- **There is one way to cut bytes into lines**, and it is the reader's. -/
theorem cutInto_iff {bytes : List UInt8} {lines : List (List UInt8)} :
    CutInto bytes lines ↔ physicalLines bytes = lines := by
  constructor
  · intro h
    induction h with
    | nothing => rfl
    | @unended line hne hfeed =>
      have hread := linesAfter_append hfeed [] []
      rw [List.append_nil, List.append_nil] at hread
      show linesAfter [] line = [line]
      rw [hread, linesAfter, if_neg (mt List.isEmpty_iff.mp (mt List.reverse_eq_nil_iff.mp hne)),
        List.reverse_reverse]
    | ended hfeed hreturn _ ih =>
      rw [physicalLines_ended hfeed, withoutReturn_reverse hreturn, List.reverse_reverse, ih]
    | @endedByReturn line bytes _ hfeed _ ih =>
      have hfeed' : 0x0A ∉ line ++ [0x0D] := fun h =>
        (List.mem_append.mp h).elim hfeed (by decide)
      rw [show line ++ 0x0D :: 0x0A :: bytes = (line ++ [0x0D]) ++ 0x0A :: bytes from
        List.append_cons line 0x0D (0x0A :: bytes), physicalLines_ended hfeed', List.reverse_append,
        ih]
      show line.reverse.reverse :: _ = _
      rw [List.reverse_reverse]
  · rintro rfl
    exact cutInto_linesAfter List.not_mem_nil bytes

/-- **Bytes that end with a line feed** are cut into lines of their own, whatever
comes after them. -/
theorem physicalLines_append {first : List UInt8} (h : first.getLast? = some 0x0A)
    (second : List UInt8) :
    physicalLines (first ++ second) = physicalLines first ++ physicalLines second := by
  obtain ⟨begun, rfl⟩ := List.getLast?_eq_some_iff.mp h
  suffices hlines : ∀ line, linesAfter line (begun ++ [0x0A] ++ second)
      = linesAfter line (begun ++ [0x0A]) ++ physicalLines second from hlines []
  clear h
  induction begun with
  | nil => exact fun line => rfl
  | cons b begun ih =>
    intro line
    simp only [List.cons_append, linesAfter]
    split
    · rw [ih, List.cons_append]
    · exact ih _

/-! ## Texts -/

@[simp] theorem ofUtf8Bytes?_eq_some_iff {line : List UInt8} {s : List Char} :
    ofUtf8Bytes? line = some s ↔ line = utf8Bytes s := by
  constructor
  · intro h
    unfold ofUtf8Bytes? at h
    obtain ⟨t, ht, rfl⟩ := Option.map_eq_some_iff.mp h
    unfold String.fromUTF8? at ht
    split at ht
    · obtain rfl := Option.some.inj ht
      unfold utf8Bytes
      rw [String.ofList_toList]
      rfl
    · exact nomatch ht
  · rintro rfl
    exact ofUtf8Bytes?_utf8Bytes s

namespace Codec

variable {α : Type} {c : Codec α}

/-! ## A line by itself -/

/-- **What a line that is no bad one comes to.** -/
inductive Takes (c : Codec α) (line : List UInt8) : Option α → Prop
  /-- A blank text is passed over. -/
  | blank {s : List Char} : line = utf8Bytes s → isBlankText s = true → Takes c line none
  /-- The text of a record is the record. -/
  | record {s : List Char} {a : α} : line = utf8Bytes s → isBlankText s = false →
    c.ofText s = .ok a → Takes c line (some a)

/-- **What is wrong with a bad line.** -/
inductive Refuses (c : Codec α) (line : List UInt8) : LineFault → Prop
  /-- It is no text. -/
  | notText : (∀ s, line ≠ utf8Bytes s) → Refuses c line .notText
  /-- It is a text that is not blank and no record. -/
  | record {s : List Char} {error : DecodeError} : line = utf8Bytes s → isBlankText s = false →
    c.ofText s = .error error → Refuses c line (.record error)

/-- What a line comes to, in terms of its text. -/
theorem ofLine_utf8Bytes (c : Codec α) (s : List Char) :
    c.ofLine (utf8Bytes s) = if isBlankText s then .ok none else
      match c.ofText s with
      | .ok a => .ok (some a)
      | .error e => .error (.record e) := by
  unfold ofLine
  split
  · next hnone => exact nomatch hnone.symm.trans (ofUtf8Bytes?_utf8Bytes s)
  · next t hsome =>
    obtain rfl := Option.some.inj (hsome.symm.trans (ofUtf8Bytes?_utf8Bytes s))
    rfl

theorem ofLine_eq_ok_iff {line : List UInt8} {found : Option α} :
    c.ofLine line = .ok found ↔ c.Takes line found := by
  constructor
  · intro h
    cases htext : ofUtf8Bytes? line with
    | none =>
      unfold ofLine at h
      rw [htext] at h
      exact nomatch h
    | some s =>
      obtain rfl := ofUtf8Bytes?_eq_some_iff.mp htext
      rw [ofLine_utf8Bytes] at h
      split at h
      · next hblank => exact Except.ok.inj h ▸ .blank rfl hblank
      · next hfull =>
        cases hrecord : c.ofText s with
        | ok a =>
          rw [hrecord] at h
          exact Except.ok.inj h ▸ .record rfl (Bool.eq_false_iff.mpr hfull) hrecord
        | error e =>
          rw [hrecord] at h
          exact nomatch h
  · rintro (⟨rfl, hblank⟩ | ⟨rfl, hfull, hrecord⟩)
    · rw [ofLine_utf8Bytes, if_pos hblank]
    · rw [ofLine_utf8Bytes, hfull, hrecord]
      rfl

theorem ofLine_eq_error_iff {line : List UInt8} {fault : LineFault} :
    c.ofLine line = .error fault ↔ c.Refuses line fault := by
  constructor
  · intro h
    cases htext : ofUtf8Bytes? line with
    | none =>
      have hnone : ∀ s, line ≠ utf8Bytes s := fun s hs =>
        nomatch htext.symm.trans (ofUtf8Bytes?_eq_some_iff.mpr hs)
      unfold ofLine at h
      rw [htext] at h
      exact Except.error.inj h ▸ .notText hnone
    | some s =>
      obtain rfl := ofUtf8Bytes?_eq_some_iff.mp htext
      rw [ofLine_utf8Bytes] at h
      split at h
      · exact nomatch h
      · next hfull =>
        cases hrecord : c.ofText s with
        | ok a =>
          rw [hrecord] at h
          exact nomatch h
        | error e =>
          rw [hrecord] at h
          exact Except.error.inj h ▸ .record rfl (Bool.eq_false_iff.mpr hfull) hrecord
  · rintro (hnone | ⟨rfl, hfull, hrecord⟩)
    · unfold ofLine
      cases htext : ofUtf8Bytes? line with
      | none => rfl
      | some s => exact absurd (ofUtf8Bytes?_eq_some_iff.mp htext) (hnone s)
    · rw [ofLine_utf8Bytes, hfull, hrecord]
      rfl

/-! ## Line by line -/

/-- Lines are read if the first one is not bad and the others are read. -/
theorem ofLines_cons_eq_ok {number : Nat} {line : List UInt8} {lines : List (List UInt8)}
    {as : List α} :
    c.ofLines number (line :: lines) = .ok as ↔
      ∃ found rest, c.Takes line found ∧ c.ofLines (number + 1) lines = .ok rest ∧
        as = found.toList ++ rest := by
  rw [ofLines]
  constructor
  · intro h
    split at h
    · cases h
    · next hline => exact ⟨none, as, ofLine_eq_ok_iff.mp hline, h, rfl⟩
    · next a hline =>
      obtain ⟨rest, hrest, rfl⟩ := exists_of_map_eq_ok h
      exact ⟨some a, rest, ofLine_eq_ok_iff.mp hline, hrest, rfl⟩
  · rintro ⟨found, rest, hline, hrest, rfl⟩
    rw [ofLine_eq_ok_iff.mpr hline, hrest]
    cases found <;> rfl

/-- Lines are refused for the first one, or else for a later one. -/
theorem ofLines_cons_eq_error {number : Nat} {line : List UInt8} {lines : List (List UInt8)}
    {e : Nat × LineFault} :
    c.ofLines number (line :: lines) = .error e ↔
      (∃ fault, c.Refuses line fault ∧ e = (number, fault)) ∨
        (∃ found, c.Takes line found) ∧ c.ofLines (number + 1) lines = .error e := by
  cases hline : c.ofLine line with
  | error fault =>
    have hrefused := ofLine_eq_error_iff.mp hline
    rw [ofLines, hline]
    constructor
    · exact fun h => .inl ⟨fault, hrefused, (Except.error.inj h).symm⟩
    · rintro (⟨fault', hrefused', rfl⟩ | ⟨⟨found, hfound⟩, -⟩)
      · rw [Except.error.inj (hline.symm.trans (ofLine_eq_error_iff.mpr hrefused'))]
      · cases hline.symm.trans (ofLine_eq_ok_iff.mpr hfound)
  | ok found =>
    have htaken : ∃ found, c.Takes line found := ⟨found, ofLine_eq_ok_iff.mp hline⟩
    have hfirst : ¬ ∃ fault, c.Refuses line fault ∧ e = (number, fault) := by
      rintro ⟨fault, hrefused, -⟩
      cases hline.symm.trans (ofLine_eq_error_iff.mpr hrefused)
    rw [or_iff_right hfirst, and_iff_right htaken, ofLines, hline]
    cases found with
    | none => exact Iff.rfl
    | some a =>
      show (c.ofLines (number + 1) lines).map (a :: ·) = .error e ↔ _
      cases c.ofLines (number + 1) lines with
      | error e' => exact Iff.rfl
      | ok rest => exact iff_of_false (fun h => by cases h) fun h => by cases h

/-- **Lines of which none is bad** are read as the records of those that are not
blank. -/
theorem ofLines_eq_ok {number : Nat} {lines : List (List UInt8)} {as : List α} :
    c.ofLines number lines = .ok as ↔
      ∃ found, List.Forall₂ c.Takes lines found ∧ as = found.reduceOption := by
  induction lines generalizing number as with
  | nil =>
    constructor
    · exact fun h => ⟨[], .nil, (Except.ok.inj h).symm⟩
    · rintro ⟨found, hfound, rfl⟩
      rw [List.forall₂_nil_left_iff.mp hfound]
      rfl
  | cons line lines ih =>
    have hreduce : ∀ (first : Option α) (rest : List (Option α)),
        (first :: rest).reduceOption = first.toList ++ rest.reduceOption := by
      intro first rest
      cases first <;> rfl
    rw [ofLines_cons_eq_ok]
    constructor
    · rintro ⟨first, later, hfirst, hlater, rfl⟩
      obtain ⟨rest, hrest, rfl⟩ := ih.mp hlater
      exact ⟨first :: rest, .cons hfirst hrest, (hreduce first rest).symm⟩
    · rintro ⟨found, hfound, rfl⟩
      obtain ⟨first, rest, hfirst, hrest, rfl⟩ := List.forall₂_cons_left_iff.mp hfound
      exact ⟨first, _, hfirst, ih.mpr ⟨rest, hrest, rfl⟩, hreduce first rest⟩

/-- The number of the first line matters to faults only. -/
theorem ofLines_eq_ok_congr {number number' : Nat} {lines : List (List UInt8)} {as : List α} :
    c.ofLines number lines = .ok as ↔ c.ofLines number' lines = .ok as :=
  ofLines_eq_ok.trans ofLines_eq_ok.symm

/-- **The first bad line** is told with its number. -/
theorem ofLines_eq_error {number n : Nat} {lines : List (List UInt8)} {fault : LineFault} :
    c.ofLines number lines = .error (n, fault) ↔
      ∃ before line after, lines = before ++ line :: after ∧
        (∀ earlier ∈ before, ∃ found, c.Takes earlier found) ∧ c.Refuses line fault ∧
        n = number + before.length := by
  induction lines generalizing number with
  | nil =>
    refine iff_of_false nofun ?_
    rintro ⟨before, line, after, h, -⟩
    exact List.append_ne_nil_of_right_ne_nil before (List.cons_ne_nil _ _) h.symm
  | cons first lines ih =>
    rw [ofLines_cons_eq_error, ih]
    constructor
    · rintro (⟨fault', hrefused, heq⟩ | ⟨htaken, before, line, after, rfl, hbefore, hrefused, rfl⟩)
      · obtain ⟨rfl, rfl⟩ := Prod.mk.inj heq
        exact ⟨[], first, lines, rfl, nofun, hrefused, rfl⟩
      · exact ⟨first :: before, line, after, rfl, List.forall_mem_cons.mpr ⟨htaken, hbefore⟩,
          hrefused, Nat.succ_add_eq_add_succ number before.length⟩
    · rintro ⟨before, line, after, heq, hbefore, hrefused, rfl⟩
      cases before with
      | nil =>
        obtain ⟨rfl, rfl⟩ := List.cons.inj heq
        exact .inl ⟨fault, hrefused, rfl⟩
      | cons earlier before =>
        obtain ⟨rfl, rfl⟩ := List.cons.inj heq
        obtain ⟨htaken, hbefore⟩ := List.forall_mem_cons.mp hbefore
        exact .inr ⟨htaken, before, line, after, rfl, hbefore, hrefused,
          (Nat.succ_add_eq_add_succ number before.length).symm⟩

/-! ## Files -/

theorem ofLines_append_eq_ok {number : Nat} {first second : List (List UInt8)} {as : List α} :
    c.ofLines number (first ++ second) = .ok as ↔
      ∃ bs cs, c.ofLines number first = .ok bs ∧ c.ofLines number second = .ok cs ∧
        as = bs ++ cs := by
  induction first generalizing number as with
  | nil =>
    constructor
    · exact fun h => ⟨[], as, rfl, h, rfl⟩
    · rintro ⟨bs, cs, hbs, hcs, rfl⟩
      obtain rfl := Except.ok.inj hbs
      exact hcs
  | cons line lines ih =>
    simp only [List.cons_append, ofLines_cons_eq_ok, ih]
    constructor
    · rintro ⟨found, rest, hline, ⟨bs, cs, hbs, hcs, rfl⟩, rfl⟩
      exact ⟨_, cs, ⟨found, bs, hline, hbs, rfl⟩, ofLines_eq_ok_congr.mp hcs,
        (List.append_assoc _ _ _).symm⟩
    · rintro ⟨_, cs, ⟨found, bs, hline, hbs, rfl⟩, hcs, rfl⟩
      exact ⟨found, _, hline, ⟨bs, cs, hbs, ofLines_eq_ok_congr.mp hcs, rfl⟩,
        List.append_assoc _ _ _⟩

end Codec

/-- **A line that is blank**: a text of nothing but blank characters. -/
def isBlankLine (line : List UInt8) : Bool :=
  (ofUtf8Bytes? line).any isBlankText

/-- The lines of some bytes that are not blank. -/
def fullLines (bytes : List UInt8) : List (List UInt8) :=
  (physicalLines bytes).filter (!isBlankLine ·)

namespace Codec

variable {α : Type} {c : Codec α}

theorem takes_of_isBlankLine {line : List UInt8} (h : isBlankLine line = true) {found : Option α} :
    c.Takes line found ↔ found = none := by
  have hline : c.ofLine line = .ok none := by
    unfold isBlankLine at h
    unfold ofLine
    cases htext : ofUtf8Bytes? line with
    | none =>
      rw [htext] at h
      exact nomatch h
    | some s =>
      rw [htext] at h
      exact if_pos h
  rw [← ofLine_eq_ok_iff, hline, Except.ok.injEq]
  exact eq_comm

/-- Blank lines can be left out. -/
theorem ofLines_filter_eq_ok {number : Nat} {lines : List (List UInt8)} {as : List α} :
    c.ofLines number (lines.filter (!isBlankLine ·)) = .ok as ↔ c.ofLines number lines = .ok as := by
  induction lines generalizing number as with
  | nil => exact Iff.rfl
  | cons line lines ih =>
    by_cases hblank : isBlankLine line = true
    · rw [List.filter_cons_of_neg (by rw [hblank]; decide), ih, ofLines_cons_eq_ok]
      constructor
      · exact fun h => ⟨none, as, (takes_of_isBlankLine hblank).mpr rfl,
          ofLines_eq_ok_congr.mp h, rfl⟩
      · rintro ⟨found, rest, hline, hrest, rfl⟩
        rw [(takes_of_isBlankLine hblank).mp hline]
        exact ofLines_eq_ok_congr.mp hrest
    · rw [List.filter_cons_of_pos (by rw [Bool.eq_false_iff.mpr hblank]; rfl)]
      simp only [ofLines_cons_eq_ok, ih]

/-- **Files with the same lines, blank ones left out, have the same records.** -/
theorem ofBytes_eq_ok_of_fullLines {bytes bytes' : List UInt8}
    (h : fullLines bytes' = fullLines bytes) (as : List α) :
    c.ofBytes bytes' = .ok as ↔ c.ofBytes bytes = .ok as := by
  have hfull : ∀ bytes, c.ofBytes bytes = .ok as ↔ c.ofLines 1 (fullLines bytes) = .ok as :=
    fun bytes => ofLines_filter_eq_ok.symm
  rw [hfull, hfull, h]

/-- **Files that come one behind the other** have the records of both. -/
theorem ofBytes_append_eq_ok {first : List UInt8} (h : first.getLast? = some 0x0A)
    (second : List UInt8) (as : List α) :
    c.ofBytes (first ++ second) = .ok as ↔
      ∃ bs cs, c.ofBytes first = .ok bs ∧ c.ofBytes second = .ok cs ∧ as = bs ++ cs := by
  unfold ofBytes
  rw [physicalLines_append h]
  exact ofLines_append_eq_ok

end Codec

/-! ## On a machine -/

namespace Machine

variable {ε α β : Type} {machine after : Machine} {path : Path} {a : α} {e : ε}

/-- A file that cannot be used is not read. -/
theorem fails_readFrom {c : Codec α} {fault : FileFault}
    (hread : machine.files.read path = .error fault) :
    machine.Fails (c.readFrom path) (.file path fault) machine := by
  have hbytes : (Host.readFile path : StateM Machine _).run machine = (.error fault, machine) := by
    show (machine.files.read path, machine) = _
    rw [hread]
  exact fails_bind_iff.mpr (.inl (fails_fileOutcome hbytes))

/-- **What reading the records of a file comes to** is decided by its bytes. -/
theorem run_readFrom {c : Codec α} {bytes : List UInt8}
    (hread : machine.files.read path = .ok bytes) :
    (c.readFrom path : ExceptT Failure (StateM Machine) (List α)).run.run machine =
      ((c.ofBytes bytes).mapError fun bad => bad.2.failure path bad.1, machine) := by
  have hbytes : (Host.readFile path : StateM Machine _).run machine = (.ok bytes, machine) := by
    show (machine.files.read path, machine) = _
    rw [hread]
  cases hrecords : c.ofBytes bytes with
  | ok records => exact yields_readFrom hread hrecords
  | error bad =>
    refine fails_bind_iff.mpr (.inr ⟨bytes, machine, yields_fileOutcome hbytes, ?_⟩)
    rw [hrecords]
    rfl

theorem yields_readFrom_iff {c : Codec α} {bytes : List UInt8} {records : List α}
    (hread : machine.files.read path = .ok bytes) :
    machine.Yields (c.readFrom path) records machine ↔ c.ofBytes bytes = .ok records := by
  unfold Yields
  rw [run_readFrom hread, Prod.mk.injEq, and_iff_left rfl]
  cases c.ofBytes bytes with
  | error bad => exact iff_of_false nofun nofun
  | ok found =>
    show Except.ok found = Except.ok records ↔ _
    rw [Except.ok.injEq, Except.ok.injEq]

theorem fails_readFrom_iff {c : Codec α} {bytes : List UInt8} {failure : Failure}
    (hread : machine.files.read path = .ok bytes) :
    machine.Fails (c.readFrom path) failure machine ↔
      ∃ number fault, c.ofBytes bytes = .error (number, fault) ∧
        failure = fault.failure path number := by
  unfold Fails
  rw [run_readFrom hread, Prod.mk.injEq, and_iff_left rfl]
  cases c.ofBytes bytes with
  | error bad =>
    constructor
    · exact fun h => ⟨bad.1, bad.2, rfl, (Except.error.inj h).symm⟩
    · rintro ⟨number, fault, h, rfl⟩
      rw [Except.error.inj h]
      rfl
  | ok found =>
    refine iff_of_false nofun ?_
    rintro ⟨number, fault, h, -⟩
    exact nomatch h

/-- **Reading changes nothing**, whether or not it succeeds. -/
theorem yields_or_fails_readFrom (c : Codec α) (path : Path) (machine : Machine) :
    (∃ records, machine.Yields (c.readFrom path) records machine) ∨
      ∃ failure, machine.Fails (c.readFrom path) failure machine := by
  cases hread : machine.files.read path with
  | error fault => exact .inr ⟨_, fails_readFrom hread⟩
  | ok bytes =>
    cases hrecords : c.ofBytes bytes with
    | ok records => exact .inl ⟨records, yields_readFrom hread hrecords⟩
    | error bad =>
      exact .inr ⟨_, (fails_readFrom_iff hread).mpr ⟨bad.1, bad.2, hrecords, rfl⟩⟩

theorem Yields.eq_of_readFrom {c : Codec α} {records : List α}
    (h : machine.Yields (c.readFrom path) records after) : after = machine := by
  unfold Yields at h
  rcases yields_or_fails_readFrom c path machine with ⟨_, hrun⟩ | ⟨_, hrun⟩
  · exact congrArg Prod.snd (h.symm.trans hrun)
  · exact congrArg Prod.snd (h.symm.trans hrun)

end Machine

namespace Dataset

variable {dir : Path} {machine : Machine} {failure : Failure}

/-- The collections of a directory are read into a dataset, one after the other. -/
def readOnto (dir : Path) : List Collection → Dataset Identifier Instant →
    ExceptT Failure (StateM Machine) (Dataset Identifier Instant)
  | [], d => pure d
  | c :: cs, d => do
    let rs ← c.codec.readFrom (c.pathIn dir)
    readOnto dir cs (d.withRecords c rs)

theorem read_eq_readOnto (dir : Path) :
    (read dir : ExceptT Failure (StateM Machine) _) = readOnto dir Collection.all {} := rfl

/-- **Reading some collections fails for the first that cannot be read.** -/
theorem fails_readOnto_iff {cs : List Collection} {d : Dataset Identifier Instant} :
    machine.Fails (readOnto dir cs d) failure machine ↔
      ∃ before c after, cs = before ++ c :: after ∧
        (∀ b ∈ before, ∃ rs, machine.Yields (b.codec.readFrom (b.pathIn dir)) rs machine) ∧
        machine.Fails (c.codec.readFrom (c.pathIn dir)) failure machine := by
  induction cs generalizing d with
  | nil =>
    refine iff_of_false (fun h => nomatch congrArg Prod.fst h) ?_
    rintro ⟨before, c, after, h, -⟩
    exact List.append_ne_nil_of_right_ne_nil before (List.cons_ne_nil _ _) h.symm
  | cons c cs ih =>
    unfold readOnto
    rw [Machine.fails_bind_iff]
    constructor
    · rintro (h | ⟨rs, middle, hrs, h⟩)
      · exact ⟨[], c, cs, rfl, nofun, h⟩
      · obtain rfl := hrs.eq_of_readFrom
        obtain ⟨before, c', after, rfl, hbefore, hfails⟩ := ih.mp h
        exact ⟨c :: before, c', after, rfl, List.forall_mem_cons.mpr ⟨⟨rs, hrs⟩, hbefore⟩, hfails⟩
    · rintro ⟨before, c', after, heq, hbefore, hfails⟩
      cases before with
      | nil =>
        obtain ⟨rfl, rfl⟩ := List.cons.inj heq
        exact .inl hfails
      | cons b before =>
        obtain ⟨rfl, rfl⟩ := List.cons.inj heq
        obtain ⟨⟨rs, hrs⟩, hbefore⟩ := List.forall_mem_cons.mp hbefore
        exact .inr ⟨rs, machine, hrs, ih.mpr ⟨before, c', after, rfl, hbefore, hfails⟩⟩

theorem fails_read_iff :
    machine.Fails (Dataset.read dir) failure machine ↔
      ∃ before c after, Collection.all = before ++ c :: after ∧
        (∀ b ∈ before, ∃ rs, machine.Yields (b.codec.readFrom (b.pathIn dir)) rs machine) ∧
        machine.Fails (c.codec.readFrom (c.pathIn dir)) failure machine := by
  rw [read_eq_readOnto]
  exact fails_readOnto_iff

/-- **A dataset is read if each of its collections is.** -/
theorem yields_read_iff {d : Dataset Identifier Instant} :
    machine.Yields (Dataset.read dir) d machine ↔
      ∀ c : Collection, machine.Yields (c.codec.readFrom (c.pathIn dir)) (d.records c) machine := by
  constructor
  · intro h c
    obtain ⟨bytes, hread, hrecords⟩ := (of_yields_read h).2 c
    exact Machine.yields_readFrom hread hrecords
  · intro h
    refine yields_read fun c => ?_
    cases hread : machine.files.read (c.pathIn dir) with
    | error fault =>
      exact nomatch congrArg Prod.fst ((h c).symm.trans (Machine.fails_readFrom hread))
    | ok bytes => exact ⟨bytes, rfl, (Machine.yields_readFrom_iff hread).mp (h c)⟩

end Dataset

/-- **A file is read line by line, and the first bad line is what is reported.**
Take any file, whatever its bytes are, and any kind of record. There is one
way to cut the bytes into lines. The records of the file are read if and only
if each line is blank or a record, and then they are those of the lines in
order; otherwise the first line that is neither is reported, as no text, or
with its number and what is wrong with it as a record. Reading changes nothing.

So blank lines do not matter to the records that are read, and a file that
ends with a line feed has, followed by another, the records of both. A
directory is read collection by collection: all have to be read, and of those
that cannot be, the first in the order of the collections is reported. -/
theorem Collection.file_lineByLine (c : Collection) {machine : Machine} {path : Path}
    {bytes : List UInt8} (hfile : machine.files.read path = .ok bytes) :
    ∃ lines, (∀ other, CutInto bytes other ↔ other = lines) ∧
      (∀ rs, machine.Yields (c.codec.readFrom path) rs machine ↔
        ∃ found, List.Forall₂ c.codec.Takes lines found ∧ rs = found.reduceOption) ∧
      (∀ failure, machine.Fails (c.codec.readFrom path) failure machine ↔
        ∃ before line after, lines = before ++ line :: after ∧
          (∀ earlier ∈ before, ∃ found, c.codec.Takes earlier found) ∧
          ∃ fault, c.codec.Refuses line fault ∧ failure = match fault with
            | .notText => .file path .invalidData
            | .record error => .record path (before.length + 1) error) ∧
      ((∃ rs, machine.Yields (c.codec.readFrom path) rs machine) ∨
        ∃ failure, machine.Fails (c.codec.readFrom path) failure machine) ∧
      (∀ path' bytes', machine.files.read path' = .ok bytes' → fullLines bytes' = fullLines bytes →
        ∀ rs, machine.Yields (c.codec.readFrom path') rs machine ↔
          machine.Yields (c.codec.readFrom path) rs machine) ∧
      (∀ path' bytes' path'', machine.files.read path' = .ok bytes' →
        machine.files.read path'' = .ok (bytes ++ bytes') → bytes.getLast? = some 0x0A →
        ∀ rs, machine.Yields (c.codec.readFrom path'') rs machine ↔
          ∃ rs₁ rs₂, machine.Yields (c.codec.readFrom path) rs₁ machine ∧
            machine.Yields (c.codec.readFrom path') rs₂ machine ∧ rs = rs₁ ++ rs₂) ∧
      ∀ dir : Path,
        (∀ d, machine.Yields (Dataset.read dir) d machine ↔ ∀ c : Collection,
          machine.Yields (c.codec.readFrom (c.pathIn dir)) (d.records c) machine) ∧
        ∀ failure, machine.Fails (Dataset.read dir) failure machine ↔
          ∃ before c after, Collection.all = before ++ c :: after ∧
            (∀ b ∈ before, ∃ rs, machine.Yields (b.codec.readFrom (b.pathIn dir)) rs machine) ∧
            machine.Fails (c.codec.readFrom (c.pathIn dir)) failure machine := by
  refine ⟨physicalLines bytes, fun other => cutInto_iff.trans eq_comm, fun rs => ?_,
    fun failure => ?_, Machine.yields_or_fails_readFrom _ _ _, ?_, ?_, fun dir =>
      ⟨fun d => Dataset.yields_read_iff, fun failure => Dataset.fails_read_iff⟩⟩
  · rw [Machine.yields_readFrom_iff hfile]
    exact Codec.ofLines_eq_ok
  · rw [Machine.fails_readFrom_iff hfile]
    constructor
    · rintro ⟨number, fault, hbytes, rfl⟩
      obtain ⟨before, line, after, hlines, hbefore, hrefused, rfl⟩ := Codec.ofLines_eq_error.mp hbytes
      refine ⟨before, line, after, hlines, hbefore, fault, hrefused, ?_⟩
      rw [Nat.add_comm]
      cases fault <;> rfl
    · rintro ⟨before, line, after, hlines, hbefore, fault, hrefused, rfl⟩
      refine ⟨1 + before.length, fault,
        Codec.ofLines_eq_error.mpr ⟨before, line, after, hlines, hbefore, hrefused, rfl⟩, ?_⟩
      rw [Nat.add_comm]
      cases fault <;> rfl
  · intro path' bytes' hfile' hsame rs
    rw [Machine.yields_readFrom_iff hfile', Machine.yields_readFrom_iff hfile]
    exact Codec.ofBytes_eq_ok_of_fullLines hsame rs
  · intro path' bytes' path'' hfile' hfile'' hended rs
    simp only [Machine.yields_readFrom_iff hfile'', Machine.yields_readFrom_iff hfile',
      Machine.yields_readFrom_iff hfile]
    exact Codec.ofBytes_append_eq_ok hended bytes' rs

/-- A category. -/
def Category.biology : Category Identifier :=
  ⟨⟨0x65a1f0c2e4b0a1b2c3d4e5f6⟩, "Biology", "Cells\r\n"⟩

/-- A file of a blank line, a record and a last line that is no text. -/
theorem Collection.file_lineByLine_notText :
    let bytes := utf8Bytes ['\u3000'] ++ 0x0D :: 0x0A :: (Category.codec.line .biology ++
      0x0D :: 0x0A :: [0xFF])
    let machine : Machine :=
      { files := { entries := [(["c.json"], .file bytes)] }
        environment := []
        now := ⟨1700000000, 0, .inl (by decide)⟩
        identifiers := ⟨7, 0, fun _ => 1700000000⟩
        freshWords := .ofSeed 42
        printed := "" }
    machine.files.read "c.json" = .ok bytes ∧
      machine.Fails (Category.codec.readFrom "c.json") (.file "c.json" .invalidData) machine := by
  intro bytes machine
  have hread : machine.files.read "c.json" = .ok bytes := rfl
  have hblank : Category.codec.Takes (utf8Bytes ['\u3000']) none := .blank rfl (by decide)
  have hrecord : Category.codec.Takes (Category.codec.line .biology) (some .biology) :=
    .record rfl (by decide +kernel) (Category.restores _).ofText
  have hnotText : ∀ s, [0xFF] ≠ utf8Bytes s := by
    intro s hs
    exact nomatch (ofUtf8Bytes?_eq_some_iff.mpr hs).symm.trans
      (show ofUtf8Bytes? [0xFF] = none by decide +kernel)
  have hplain : 0x0A ∉ Category.codec.line .biology := fun h =>
    absurd (Codec.plainByte_of_mem_line _ _ _ h) (by decide)
  have hlines : CutInto bytes [utf8Bytes ['\u3000'], Category.codec.line .biology, [0xFF]] :=
    .endedByReturn (by decide) (.endedByReturn hplain (.unended (by decide) (by decide)))
  obtain ⟨lines, hcut, -, hfails, -⟩ := Collection.file_lineByLine .categories hread
  refine ⟨hread, (hfails _).mpr ⟨[_, _], [0xFF], [], ((hcut _).mp hlines).symm, ?_, .notText,
    .notText hnotText, rfl⟩⟩
  exact List.forall_mem_cons.mpr ⟨⟨none, hblank⟩, List.forall_mem_singleton.mpr ⟨_, hrecord⟩⟩

end Academy
