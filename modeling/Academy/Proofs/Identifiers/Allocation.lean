import Academy.Proofs.Integrity.Generated

/-!
# Identifiers are told apart by second and count

A process makes identifiers one after the other. Each takes the second
that it is given, the bytes that the process chose, and the lower 24 bits
of a counter of 32 bits, and leaves the counter one further. What becomes
of the counter is all that one use has to do with the next, so a run of
uses is gone through once (`allocate`), and the identifier of a use is
known from the place of the use alone.

That the counter comes round at 32 bits does not show in its lower 24,
since the one is a multiple of the other. So the counters of two uses
agree exactly if a multiple of `2 ^ 24` uses lies between them, and the
identifiers agree exactly if the seconds do as well. A dataset takes one
identifier for each of its records and none besides, which makes all of
them different up to `2 ^ 24` records, even with a clock that stands still
or goes back.
-/

namespace Academy

/-! ## Bytes -/

/-- The last `width` bytes of a number, the most significant one first. -/
def bigEndian : (width : Nat) → Nat → List UInt8
  | 0, _ => []
  | width + 1, n => bigEndian width (n / 256) ++ [.ofNat n]

theorem bigEndian_eq_map (width n : Nat) :
    bigEndian width n
      = (List.range width).map fun place => UInt8.ofNat (n / 256 ^ (width - 1 - place)) := by
  induction width generalizing n with
  | zero => rfl
  | succ width ih =>
    rw [bigEndian, ih, List.range_succ, List.map_append, List.map_singleton]
    congr 1
    · refine List.map_congr_left fun place hplace => ?_
      rw [List.mem_range] at hplace
      rw [Nat.div_div_eq_div_mul, ← Nat.pow_succ']
      congr 3
      omega
    · simp

/-- **The bytes of two numbers written one behind the other.** -/
theorem bigEndian_append (width : Nat) {width' n : Nat} (m : Nat) (hn : n < 256 ^ width') :
    bigEndian (width + width') (m * 256 ^ width' + n)
      = bigEndian width m ++ bigEndian width' n := by
  induction width' generalizing n with
  | zero =>
    obtain rfl : n = 0 := by simpa using hn
    simp [bigEndian]
  | succ width' ih =>
    have hrest : n / 256 < 256 ^ width' := by
      rw [Nat.div_lt_iff_lt_mul (by decide), ← Nat.pow_succ]
      exact hn
    have hsplit : m * 256 ^ (width' + 1) + n = 256 * (m * 256 ^ width') + n := by
      rw [Nat.pow_succ]
      ring
    rw [← Nat.add_assoc, bigEndian, bigEndian, hsplit, Nat.mul_add_div (by decide), ih hrest,
      List.append_assoc]
    congr 3
    refine UInt8.toNat_inj.mp ?_
    rw [UInt8.toNat_ofNat', UInt8.toNat_ofNat']
    omega

namespace Identifier

theorem bytes_eq (i : Identifier) : i.bytes = bigEndian 12 i.bits.toNat := by
  rw [bigEndian_eq_map]
  refine List.map_congr_left fun place hplace => UInt8.toNat_inj.mp ?_
  rw [List.mem_range] at hplace
  show (i.bits.extractLsb' (8 * (11 - place)) 8).toNat = _
  rw [BitVec.extractLsb'_toNat, UInt8.toNat_ofNat', Nat.shiftRight_eq_div_pow, Nat.pow_mul]

/-! ## The parts of an identifier -/

theorem toNat_ofParts (second : BitVec 32) (process : BitVec 40) (counter : BitVec 24) :
    (ofParts second process counter).bits.toNat
      = (second.toNat * 2 ^ 40 + process.toNat) * 2 ^ 24 + counter.toNat := by
  show (second ++ process ++ counter).toNat = _
  rw [BitVec.toNat_append, BitVec.toNat_append, ← Nat.shiftLeft_add_eq_or_of_lt process.isLt,
    ← Nat.shiftLeft_add_eq_or_of_lt counter.isLt, Nat.shiftLeft_eq, Nat.shiftLeft_eq]

/-- An identifier is put together from its parts. -/
@[simp] theorem ofParts_parts (i : Identifier) : ofParts i.second i.process i.counter = i := by
  have hlt : i.bits.toNat < 2 ^ 96 := i.bits.isLt
  have hbits : (ofParts i.second i.process i.counter).bits = i.bits := by
    refine BitVec.eq_of_toNat_eq ?_
    rw [toNat_ofParts, Identifier.second, Identifier.process, Identifier.counter,
      BitVec.extractLsb'_toNat, BitVec.extractLsb'_toNat, BitVec.extractLsb'_toNat,
      Nat.shiftRight_eq_div_pow, Nat.shiftRight_eq_div_pow, Nat.shiftRight_eq_div_pow]
    omega
  exact congrArg Identifier.mk hbits

/-- **What an identifier is made of**, as its parts and as its bytes. -/
structure MadeOf (i : Identifier) (s : UInt32) (p : BitVec 40) (count : Nat) : Prop where
  /-- It gives its second back. -/
  second : i.second = s.toBitVec
  /-- It holds what the process chose. -/
  process : i.process = p
  /-- It holds the counter. -/
  counter : i.counter.toNat = count
  /-- The parts stand in its bytes one behind the other. -/
  bytes : i.bytes = bigEndian 4 s.toNat ++ bigEndian 5 p.toNat ++ bigEndian 3 count

theorem madeOf_ofParts (second : UInt32) (process : BitVec 40) (counter : BitVec 24) :
    (ofParts second.toBitVec process counter).MadeOf second process counter.toNat := by
  have hbits := toNat_ofParts second.toBitVec process counter
  have hprocess : process.toNat < 2 ^ 40 := process.isLt
  have hcounter : counter.toNat < 2 ^ 24 := counter.isLt
  refine ⟨BitVec.eq_of_toNat_eq ?_, BitVec.eq_of_toNat_eq ?_, ?_, ?_⟩
  · have hsecond : second.toBitVec.toNat < 2 ^ 32 := second.toBitVec.isLt
    rw [Identifier.second, BitVec.extractLsb'_toNat, hbits, Nat.shiftRight_eq_div_pow]
    omega
  · rw [Identifier.process, BitVec.extractLsb'_toNat, hbits, Nat.shiftRight_eq_div_pow]
    omega
  · rw [counter_ofParts]
  · rw [bytes_eq, hbits, ← bigEndian_append 4 _ hprocess, ← bigEndian_append 9 _ hcounter]
    rfl

theorem Source.madeOf_identifier (source : Source) (use : Nat) :
    (source.identifier use).MadeOf (source.clock use) source.process
      ((source.start.toNat + use) % 2 ^ 24) := by
  have hmade : (source.identifier use).MadeOf (source.clock use) source.process _ :=
    madeOf_ofParts _ _ _
  rw [← source.toNat_counter_identifier, hmade.counter]
  exact hmade

/-- **Identifiers of one process are equal exactly if they have the same second and
the same counter.** -/
theorem MadeOf.eq_iff {i j : Identifier} {s t : UInt32} {process : BitVec 40} {m n : Nat}
    (hi : i.MadeOf s process m) (hj : j.MadeOf t process n) : i = j ↔ s = t ∧ m = n := by
  constructor
  · rintro rfl
    exact ⟨UInt32.toBitVec_inj.mp (hi.second.symm.trans hj.second),
      hi.counter.symm.trans hj.counter⟩
  · rintro ⟨rfl, rfl⟩
    rw [← i.ofParts_parts, ← j.ofParts_parts, hi.second, hj.second, hi.process, hj.process,
      BitVec.eq_of_toNat_eq (hi.counter.trans hj.counter.symm)]

/-! ## One use after the other -/

/-- **The identifiers of a run of uses** at the given seconds, the counter being
where it is before the first of them. -/
def allocate (process : BitVec 40) : (counter : UInt32) → (seconds : List UInt32) → List Identifier
  | _, [] => []
  | counter, second :: seconds =>
    ofParts second.toBitVec process (counter.toBitVec.setWidth 24)
      :: allocate process (counter + 1) seconds

@[simp] theorem length_allocate (process : BitVec 40) (counter : UInt32) (seconds : List UInt32) :
    (allocate process counter seconds).length = seconds.length := by
  induction seconds generalizing counter with
  | nil => rfl
  | cons second seconds ih => rw [allocate, List.length_cons, ih, List.length_cons]

/-- The first identifier holds the counter as it is. -/
theorem Source.identifier_zero (source : Source) :
    source.identifier 0
      = ofParts (source.clock 0).toBitVec source.process (source.start.toBitVec.setWidth 24) := by
  have hstart : source.start + .ofNat 0 = source.start := UInt32.add_zero _
  unfold identifier
  rw [hstart]

/-- **What is left of some uses** is that the counter is as many further. -/
@[simp] theorem Source.identifier_after (source : Source) (uses use : Nat) :
    (source.after uses).identifier use = source.identifier (uses + use) := by
  have hcounter : source.start + .ofNat uses + .ofNat use = source.start + .ofNat (uses + use) := by
    rw [UInt32.add_assoc, UInt32.ofNat_add]
  unfold identifier after
  dsimp only
  rw [hcounter]

/-- **The identifier of a use is known from its place**: nothing else is left of
the uses before it. -/
@[simp] theorem getElem?_allocate (process : BitVec 40) (counter : UInt32) (seconds : List UInt32)
    (use : Nat) :
    (allocate process counter seconds)[use]?
      = seconds[use]?.map fun second =>
        (Source.mk process counter fun _ => second).identifier use := by
  induction seconds generalizing counter use with
  | nil => rfl
  | cons second seconds ih =>
    cases use with
    | zero => exact congrArg some (Source.identifier_zero ⟨process, counter, fun _ => second⟩).symm
    | succ use =>
      rw [allocate, List.getElem?_cons_succ, List.getElem?_cons_succ, ih]
      refine congrArg (Option.map · _) (funext fun second => ?_)
      rw [Nat.add_comm, ← Source.identifier_after]
      rfl

/-- A source makes the identifiers of a run at the seconds of its clock. -/
theorem Source.map_identifier (source : Source) (uses : Nat) :
    (List.range uses).map source.identifier
      = allocate source.process source.start ((List.range uses).map source.clock) := by
  refine List.ext_getElem? fun use => ?_
  rw [getElem?_allocate, List.getElem?_map, List.getElem?_map, Option.map_map]
  rcases Nat.lt_or_ge use uses with hlt | hge
  · rw [List.getElem?_range hlt]
    rfl
  · rw [List.getElem?_eq_none (by rwa [List.length_range])]
    rfl

/-- **Each use makes one identifier**, of its own second and of the count of the
uses before it. -/
theorem allocate_madeOf (process : BitVec 40) (start : UInt32) {seconds : List UInt32} {use : Nat}
    {second : UInt32} (h : seconds[use]? = some second) :
    ∃ i, (allocate process start seconds)[use]? = some i ∧
      i.MadeOf second process ((start.toNat + use) % 2 ^ 24) := by
  refine ⟨_, ?_, Source.madeOf_identifier ⟨process, start, fun _ => second⟩ use⟩
  simp [h]

/-- **Two uses make the same identifier** exactly if they are at the same second and
whole rounds of the counter lie between them. -/
theorem allocate_eq_iff {process : BitVec 40} {start : UInt32} {seconds : List UInt32} {m n : Nat}
    {s t : UInt32} (hmn : m ≤ n) (hm : seconds[m]? = some s) (hn : seconds[n]? = some t) :
    (allocate process start seconds)[m]? = (allocate process start seconds)[n]? ↔
      s = t ∧ 2 ^ 24 ∣ n - m := by
  obtain ⟨i, hi, himade⟩ := allocate_madeOf process start hm
  obtain ⟨j, hj, hjmade⟩ := allocate_madeOf process start hn
  rw [hi, hj, Option.some_inj, himade.eq_iff hjmade]
  refine and_congr_right fun _ => ?_
  omega

end Identifier

/-! ## Runs and datasets -/

/-- **Identifiers are told apart.** Take whatever the process chose, and any start of
the counter. In a run of uses at any seconds, however long it is, each use makes
an identifier of its second, of what the process chose, and of the counter, which
counts the uses modulo `2 ^ 24`; and two uses make the same identifier exactly if
they are at the same second and a multiple of `2 ^ 24` uses apart. What a source
makes is such a run at the seconds of its clock. A dataset takes the
identifiers of such a run, one for each record, so with `2 ^ 24`
records at most no two of them have the same identifier, in whatever collections
they are and whatever the clock shows. There is no dataset only where the
calendar does not reach back as far as dates do, or where there is no room for a
collection. -/
theorem identifiers_told_apart (process : BitVec 40) (start : UInt32) :
    (∀ seconds : List UInt32,
      (Identifier.allocate process start seconds).length = seconds.length ∧
      (∀ use second, seconds[use]? = some second →
        ∃ i : Identifier, (Identifier.allocate process start seconds)[use]? = some i ∧
          i.MadeOf second process ((start.toNat + use) % 2 ^ 24)) ∧
      ∀ m n s t, m < n → seconds[m]? = some s → seconds[n]? = some t →
        ((Identifier.allocate process start seconds)[m]?
            = (Identifier.allocate process start seconds)[n]? ↔ s = t ∧ 2 ^ 24 ∣ n - m)) ∧
    (∀ (clock : Nat → UInt32) (uses : Nat),
      (List.range uses).map (Identifier.Source.mk process start clock).identifier
        = Identifier.allocate process start ((List.range uses).map clock)) ∧
    ∀ (counts : Counts) (Date : Type) (timeline : Timeline Date) (clock : Nat → UInt32) (room : Nat)
      (stream : WordStream), counts.validate = .ok () →
      (∃ d, ((Dataset.draw room counts timeline
            (Identifier.Source.mk process start clock).identifier).readFrom stream).1 = .ok d ∧
        d.counts = counts ∧
        d.recordIds
          = Identifier.allocate process start ((List.range counts.total).map clock) ∧
        (counts.total ≤ 2 ^ 24 → d.recordIds.Nodup)) ∨
      ∃ e, ((Dataset.draw room counts timeline
            (Identifier.Source.mk process start clock).identifier).readFrom stream).1 = .error e ∧
        Dataset.Fails room counts timeline e := by
  refine ⟨fun seconds => ⟨Identifier.length_allocate _ _ _,
    fun _ _ => Identifier.allocate_madeOf process start,
    fun m n s t hmn => Identifier.allocate_eq_iff hmn.le⟩,
    fun clock uses => Identifier.Source.map_identifier ⟨process, start, clock⟩ uses, ?_⟩
  intro counts Date timeline clock room stream hcounts
  have hgives : (Dataset.draw room counts timeline
      (Identifier.Source.mk process start clock).identifier).Gives
        (Dataset.Fails room counts timeline) _ :=
    Dataset.draw_gives_met id fun c hc h => ⟨c, hc, h⟩
  replace hgives := hgives stream
  rw [counts.met_eq_self_iff.mpr hcounts] at hgives
  generalize (Draw.readFrom _ stream).1 = outcome at hgives ⊢
  rcases outcome with e | d
  · exact .inr ⟨e, rfl, hgives⟩
  · obtain ⟨-, hnumbers, hids⟩ := hgives
    refine .inl ⟨d, rfl, hnumbers, ?_, fun hfew => ?_⟩
    · rw [hids, Identifier.Source.map_identifier]
    · rw [hids]
      exact Identifier.Source.nodup_identifiers _ hfew

/-- A counter that comes round at 32 bits, and the standard numbers with a clock that
stands still. -/
theorem identifiers_told_apart_standard :
    let source : Identifier.Source := ⟨7, 4294967295, fun _ => 1700000000⟩
    Counts.standard.validate = .ok () ∧ Counts.standard.total ≤ 2 ^ 24 ∧
      (Identifier.allocate 7 4294967295 [1700000000, 1700000000])[0]?
        ≠ (Identifier.allocate 7 4294967295 [1700000000, 1700000000])[1]? ∧
      ∃ d, ((Dataset.draw memoryLimit .standard (Instant.ofSeconds 1700000000).timeline
          source.identifier).readFrom (.ofSeed 42)).1 = .ok d ∧ d.recordIds.Nodup := by
  intro source
  obtain ⟨hruns, -, hdatasets⟩ := identifiers_told_apart 7 4294967295
  have hcounts : Counts.standard.validate = .ok () := by decide
  have hfew : Counts.standard.total ≤ 2 ^ 24 := by decide
  refine ⟨hcounts, hfew, fun heq => ?_, ?_⟩
  · obtain ⟨-, -, happart⟩ := hruns [1700000000, 1700000000]
    obtain ⟨-, hrounds⟩ :=
      (happart 0 1 1700000000 1700000000 Nat.zero_lt_one rfl rfl).mp heq
    exact absurd hrounds (by decide)
  · obtain ⟨d, hd, -, -, hnodup⟩ | ⟨e, -, hfails⟩ :=
      hdatasets .standard Instant (Instant.ofSeconds 1700000000).timeline (fun _ => 1700000000)
        memoryLimit (.ofSeed 42) hcounts
    · exact ⟨d, hd, hnodup hfew⟩
    · have hreach : earliestDays ≤ (Instant.ofSeconds 1700000000).reach :=
        Instant.le_reach (by decide)
      cases e with
      | beforeCalendar => exact absurd (show _ < earliestDays from hfails) (Nat.not_lt.mpr hreach)
      | memory =>
        obtain ⟨c, -, hroom⟩ := hfails
        exact absurd hroom (by cases c <;> decide)

end Academy
