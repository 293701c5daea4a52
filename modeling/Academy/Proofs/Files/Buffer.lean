import Academy.Proofs.Files.Actions
import Academy.Proofs.Files.Lines
import Academy.Proofs.Files.Tree

/-!
# What a buffer writes

A buffer neither loses bytes nor changes their order: what has been
written and what waits are together what was put in, whatever the pieces
are (`Buffer.Holds`). So the chunks of a file's pieces are the bytes of its
text, and where they can all be added to an empty file, it has that text.

Where one of them cannot, the file is left with a beginning of the text,
the last attempt at the waiting bytes included, and the fault is the one
that writing the text at once would have had: a text that is too long is
so from some chunk on, and longer ones are no shorter.
-/

namespace Academy

/-! ## The text in pieces -/

namespace Json

theorem flatten_escapedPieces (run s : List Char) (hrun : ∀ c ∈ run, escapedChar c = [c]) :
    (escapedPieces run s).flatten = run.reverse ++ s.flatMap escapedChar := by
  have hfirst : ∀ run : List Char,
      (if run.isEmpty then [] else [run.reverse]).flatten = run.reverse := by
    intro run
    cases run with
    | nil => rfl
    | cons c run => simp
  induction s generalizing run with
  | nil =>
    unfold escapedPieces
    rw [hfirst, List.flatMap_nil, List.append_nil]
  | cons c s ih =>
    unfold escapedPieces
    split
    · next hplain =>
      rw [ih (c :: run) (List.forall_mem_cons.mpr ⟨hplain, hrun⟩), List.flatMap_cons, hplain,
        List.reverse_cons, List.append_assoc]
    · rw [List.flatten_append, hfirst, List.flatten_cons, ih [] nofun, List.flatMap_cons]
      rfl

@[simp] theorem flatten_stringPieces (s : String) : (stringPieces s).flatten = stringText s := by
  unfold stringPieces stringText
  rw [List.cons_append, List.flatten_cons, List.flatten_append, flatten_escapedPieces [] _ nofun]
  rfl

mutual

/-- **The pieces of a text are the text.** -/
@[simp] theorem flatten_pieces : (j : Json) → j.pieces.flatten = j.text
  | .null => rfl
  | .bool true => rfl
  | .bool false => rfl
  | .number _ => List.append_nil _
  | .string s => by simp [pieces, text]
  | .array items => congrArg ('[' :: ·) (flatten_itemsPieces items)
  | .object members => congrArg ('{' :: ·) (flatten_membersPieces members)

@[simp]
theorem flatten_itemsPieces : (items : List Json) → (itemsPieces items).flatten = itemsText items
  | [] => rfl
  | [item] => by simp [itemsPieces, itemsText, flatten_pieces item]
  | item :: next :: items => by
    simp [itemsPieces, itemsText, flatten_pieces item, flatten_itemsPieces (next :: items)]

@[simp] theorem flatten_membersPieces : (members : List (String × Json)) →
    (membersPieces members).flatten = membersText members
  | [] => rfl
  | [(name, value)] => by
    simp [membersPieces, membersText, flatten_pieces value]
  | (name, value) :: next :: members => by
    simp [membersPieces, membersText, flatten_pieces value, flatten_membersPieces (next :: members)]

end

end Json

/-! ## The chunks -/

namespace Buffer

/-- **What there is of some bytes**: what has been written and what waits. -/
def Holds (state : Buffer × List Chunk) (bytes : List UInt8) : Prop :=
  state.2.reverse.flatMap Chunk.bytes ++ state.1.bytes = bytes

@[simp] theorem bytes_empty : empty.bytes = [] :=
  rfl

@[simp] theorem bytes_push (buffer : Buffer) (piece : List UInt8) :
    (buffer.push piece).bytes = buffer.bytes ++ piece := by
  unfold bytes push
  rw [List.reverse_cons, List.flatten_append, List.flatten_singleton]

@[simp] theorem length_bytes (buffer : Buffer) : buffer.bytes.length = buffer.size := by
  unfold bytes
  rw [buffer.size_eq]
  exact (List.reverse_perm _).flatten.length_eq

variable {state : Buffer × List Chunk} {bytes : List UInt8} {piece : Piece}

theorem Holds.makeRoom (h : Holds state bytes) (piece : Piece) :
    Holds (Buffer.makeRoom state piece) bytes := by
  unfold Buffer.makeRoom
  split
  · rw [← h]
    unfold Holds
    simp
  · exact h

/-- After room has been made for a piece that is too large to wait, nothing waits. -/
theorem bytes_makeRoom (h : ¬ piece.bytes.length < capacity) :
    (makeRoom state piece).1.bytes = [] := by
  unfold makeRoom
  split
  · rfl
  · next hroom =>
    rw [← List.length_eq_zero_iff, length_bytes]
    have hcapacity : 0 < capacity := by decide
    omega

/-- **A piece is taken** after what has been taken before it. -/
theorem Holds.take (h : Holds state bytes) (piece : Piece) :
    Holds (Buffer.take state piece) (bytes ++ piece.bytes) := by
  have hroom := h.makeRoom piece
  unfold Buffer.take
  dsimp only
  split
  · rw [← hroom]
    unfold Holds
    rw [bytes_push, List.append_assoc]
  · next hlarge =>
    have hempty : (Buffer.makeRoom state piece).1.bytes = [] := bytes_makeRoom hlarge
    rw [← hroom]
    unfold Holds
    simp [hempty]

/-- **The chunks have all the bytes of the pieces**, in their order. -/
@[simp] theorem flatMap_chunks (pieces : List Piece) :
    (chunks pieces).flatMap Chunk.bytes = pieces.flatMap Piece.bytes := by
  have hall : ∀ state bytes, Holds state bytes →
      Holds (pieces.foldl Buffer.take state) (bytes ++ pieces.flatMap Piece.bytes) := by
    induction pieces with
    | nil => exact fun state bytes h => by simpa using h
    | cons piece pieces ih =>
      intro state bytes h
      rw [List.foldl_cons, List.flatMap_cons, ← List.append_assoc]
      exact ih _ _ (h.take piece)
  have hholds := hall (empty, []) [] rfl
  unfold chunks
  show ((⟨(pieces.foldl Buffer.take (empty, [])).1.bytes, false, true⟩ : Chunk)
    :: (pieces.foldl Buffer.take (empty, [])).2).reverse.flatMap Chunk.bytes = _
  rw [List.reverse_cons, List.flatMap_append, ← List.nil_append (List.flatMap _ pieces), ← hholds]
  simp

end Buffer

/-- **The chunks of a file of records have its bytes.** -/
theorem Codec.flatMap_chunks {α : Type} (c : Codec α) (records : List α) :
    (Buffer.chunks (c.pieces records)).flatMap Chunk.bytes = c.toBytes records := by
  have hrecord : ∀ pieces : List (List Char),
      (pieces.map fun s => (⟨utf8Bytes s, true⟩ : Piece)).flatMap Piece.bytes
        = utf8Bytes pieces.flatten := by
    intro pieces
    induction pieces with
    | nil => rfl
    | cons s pieces ih =>
      simp [ih]
  rw [Buffer.flatMap_chunks, c.toBytes_eq]
  unfold Codec.pieces
  induction records with
  | nil => rfl
  | cons a records ih =>
    rw [List.flatMap_cons, List.flatMap_append, ih, List.map_cons, List.flatMap_cons,
      List.flatMap_append, hrecord, Json.flatten_pieces]
    rfl

/-! ## Writing on a machine -/

/-- **A file that could not be written as it should**: it was not even opened, or it
has a beginning of what it should have. -/
def FileTree.Cut (tree tree' : FileTree) (path : Path) (bytes : List UInt8) : Prop :=
  tree' = tree ∨ ∃ place kept, tree.FilePlace path place ∧ kept <+: bytes ∧
    tree' = tree.put place (.file kept)

namespace FileTree.Cut

variable {tree tree' : FileTree} {path : Path} {bytes : List UInt8} {place : Place}

theorem keeps (h : tree.Cut tree' path bytes) : tree.Keeps tree' := by
  rcases h with rfl | ⟨place, kept, hplace, -, rfl⟩
  · exact .refl _
  · exact hplace.keeps kept

theorem keeps_back (h : tree.Cut tree' path bytes) : tree'.Keeps tree := by
  rcases h with rfl | ⟨place, kept, hplace, -, rfl⟩
  · exact .refl _
  · exact hplace.keeps_back kept

/-- Every other place is left alone. -/
theorem entry (h : tree.Cut tree' path bytes) (hne : tree.locate path ≠ .ok place) :
    tree'.entry? place = tree.entry? place := by
  rcases h with rfl | ⟨found, kept, hplace, -, rfl⟩
  · rfl
  · refine entry?_put_of_ne ?_ _
    rintro rfl
    exact hne hplace.locate

/-- **The file itself** is left alone, or has a beginning of its bytes. -/
theorem at_place (h : tree.Cut tree' path bytes) (hlocated : tree.locate path = .ok place) :
    tree'.entry? place = tree.entry? place ∨
      ∃ kept, kept <+: bytes ∧ tree'.entry? place = some (.file kept) := by
  rcases h with rfl | ⟨found, kept, hplace, hkept, rfl⟩
  · exact .inl rfl
  · obtain rfl : found = place := Except.ok.inj (hplace.locate.symm.trans hlocated)
    exact .inr ⟨kept, hkept, entry?_put_self hplace.ne_nil _⟩

end FileTree.Cut

/-- **A failure that is about the writing of a file.** -/
def Failure.IsOf (failure : Failure) (path : Path) (fault : FileFault) : Prop :=
  failure = .file path fault ∨ failure = .write path fault

theorem Chunk.failure_isOf (chunk : Chunk) (path : Path) (fault : FileFault) :
    (chunk.failure path fault).IsOf path fault := by
  unfold failure
  split
  · exact .inr rfl
  · exact .inl rfl

namespace Machine

variable {tree : FileTree} {path : Path} {place : Place} {chunk : Chunk} {chunks : List Chunk}
  {fault : FileFault}

/-- The machine whose files are those of a tree, with some bytes at a place. -/
def withFile (machine : Machine) (tree : FileTree) (place : Place) (kept : List UInt8) : Machine :=
  { machine with files := tree.put place (.file kept) }

theorem yields_appendFile (hplace : tree.FilePlace path place) (machine : Machine)
    (kept bytes : List UInt8) :
    (machine.withFile tree place kept).Yields
      (ExceptT.lift (Host.appendFile path bytes) : ExceptT Failure (StateM Machine) _)
      ((tree.allowed place).keep kept bytes).2
      (machine.withFile tree place ((tree.allowed place).keep kept bytes).1) := by
  show (Except.ok ((tree.put place (.file kept)).append path bytes).2,
    ({ machine with files := ((tree.put place (.file kept)).append path bytes).1 } : Machine)) = _
  rw [hplace.append]
  rfl

/-- **A chunk is added to a file** that can have so many bytes. -/
theorem yields_writeTo_chunk (hplace : tree.FilePlace path place) (machine : Machine)
    {kept : List UInt8}
    (h : (tree.allowed place).fault? (kept.length + chunk.bytes.length) = none) :
    (machine.withFile tree place kept).Yields (chunk.writeTo path) ()
      (machine.withFile tree place (kept ++ chunk.bytes)) := by
  have happend := yields_appendFile hplace machine kept chunk.bytes
  rw [Allowance.keep_of_none h] at happend
  exact happend.bind (yields_pure ())

/-- **A chunk for which there is no room** fails, and the file has a beginning of what
it was to have. -/
theorem fails_writeTo_chunk (hplace : tree.FilePlace path place) (machine : Machine)
    {kept : List UInt8}
    (h : (tree.allowed place).fault? (kept.length + chunk.bytes.length) = some fault) :
    ∃ now, now <+: kept ++ chunk.bytes ∧ (machine.withFile tree place kept).Fails
      (chunk.writeTo path) (chunk.failure path fault) (machine.withFile tree place now) := by
  obtain ⟨now, rest, hkeep, hall⟩ := Allowance.keep_of_some h
  have happend := yields_appendFile hplace machine kept chunk.bytes
  rw [hkeep] at happend
  cases hwaited : chunk.waited with
  | false =>
    refine ⟨now, hall ▸ List.prefix_append now rest, happend.bind_fails ?_⟩
    dsimp only
    rw [hwaited]
    rfl
  | true =>
    refine ⟨_, hall ▸ (tree.allowed place).keep_isPrefix now rest, happend.bind_fails ?_⟩
    dsimp only
    rw [hwaited]
    exact (yields_appendFile hplace machine now rest).bind_fails rfl

/-- **Chunks are added to a file one after the other**, if it can have all their bytes. -/
theorem yields_forM_writeTo (hplace : tree.FilePlace path place) (machine : Machine)
    (kept : List UInt8)
    (h : (tree.allowed place).fault? (kept ++ chunks.flatMap Chunk.bytes).length = none) :
    (machine.withFile tree place kept).Yields (chunks.forM (Chunk.writeTo path)) ()
      (machine.withFile tree place (kept ++ chunks.flatMap Chunk.bytes)) := by
  induction chunks generalizing kept with
  | nil =>
    rw [List.flatMap_nil, List.append_nil]
    exact yields_pure ()
  | cons chunk chunks ih =>
    rw [List.flatMap_cons, ← List.append_assoc] at h ⊢
    have hchunk : (tree.allowed place).fault? (kept.length + chunk.bytes.length) = none := by
      refine Allowance.fault?_eq_none_mono h ?_
      rw [List.length_append, List.length_append]
      exact Nat.le_add_right _ _
    exact (yields_writeTo_chunk hplace machine hchunk).bind (ih _ h)

/-- **The first chunk for which there is no room** ends this, with the fault that all
the bytes together would have. -/
theorem fails_forM_writeTo (hplace : tree.FilePlace path place) (machine : Machine)
    (kept : List UInt8) (hkept : (tree.allowed place).fault? kept.length = none)
    (h : (tree.allowed place).fault? (kept ++ chunks.flatMap Chunk.bytes).length = some fault) :
    ∃ failure now, failure.IsOf path fault ∧ now <+: kept ++ chunks.flatMap Chunk.bytes ∧
      (machine.withFile tree place kept).Fails (chunks.forM (Chunk.writeTo path)) failure
        (machine.withFile tree place now) := by
  induction chunks generalizing kept with
  | nil =>
    rw [List.flatMap_nil, List.append_nil, hkept] at h
    exact nomatch h
  | cons chunk chunks ih =>
    rw [List.flatMap_cons, ← List.append_assoc] at h ⊢
    cases hchunk : (tree.allowed place).fault? (kept.length + chunk.bytes.length) with
    | none =>
      obtain ⟨failure, now, hfailure, hnow, hfails⟩ := ih _ (List.length_append ▸ hchunk) h
      exact ⟨failure, now, hfailure, hnow,
        (yields_writeTo_chunk hplace machine hchunk).bind_fails hfails⟩
    | some first =>
      -- what is too long stays so when more is added
      have hlength : kept.length + chunk.bytes.length
          ≤ (kept ++ chunk.bytes ++ chunks.flatMap Chunk.bytes).length := by
        rw [List.length_append, List.length_append]
        exact Nat.le_add_right _ _
      obtain rfl : first = fault :=
        Option.some.inj ((Allowance.fault?_mono hchunk hlength).symm.trans h)
      obtain ⟨now, hnow, hfails⟩ := fails_writeTo_chunk hplace machine hchunk
      exact ⟨_, now, chunk.failure_isOf path first, hnow.trans (List.prefix_append _ _),
        hfails.bind _⟩

/-! ## Files of records -/

variable {α : Type} {c : Codec α} {records : List α} {machine : Machine}

theorem run_createFile (path : Path) (machine : Machine) :
    (Host.createFile path : StateM Machine _).run machine
      = ((settled machine.files (machine.files.create path)).2,
        { machine with files := (settled machine.files (machine.files.create path)).1 }) :=
  rfl

/-- **Records are written** where their bytes can be. -/
theorem yields_writeTo {files : FileTree}
    (h : machine.files.write path (c.toBytes records) = .ok files) :
    machine.Yields (c.writeTo path records) records.length { machine with files } := by
  obtain ⟨place, hplace, hfault, rfl⟩ := FileTree.write_cases h
  have hopened := run_createFile path machine
  rw [hplace.create, Allowance.fault?_eq_none_mono hfault (Nat.zero_le _)] at hopened
  have hbytes := c.flatMap_chunks records
  have hchunks : (machine.withFile machine.files place []).Yields
      ((Buffer.chunks (c.pieces records)).forM (Chunk.writeTo path)) () _ :=
    yields_forM_writeTo hplace machine [] (hbytes.symm ▸ hfault)
  rw [List.nil_append, hbytes] at hchunks
  exact (yields_fileOutcome hopened).bind (hchunks.bind (yields_pure _))

/-- **Records that cannot be written** leave a file that has been cut. -/
theorem fails_writeTo (h : machine.files.write path (c.toBytes records) = .error fault) :
    ∃ failure files, failure.IsOf path fault ∧
      machine.files.Cut files path (c.toBytes records) ∧
      machine.Fails (c.writeTo path records) failure { machine with files } := by
  have hopened := run_createFile path machine
  rcases hcreate : machine.files.create path with fault' | opened
  · obtain rfl : fault' = fault := by
      unfold FileTree.write at h
      rw [hcreate] at h
      exact Except.error.inj h
    rw [hcreate] at hopened
    exact ⟨_, machine.files, .inl rfl, .inl rfl, (fails_fileOutcome hopened).bind _⟩
  · obtain ⟨place, hplace⟩ := FileTree.filePlace_of_create hcreate
    obtain ⟨hopen, rfl⟩ := hplace.create_eq_ok hcreate
    rw [hcreate] at hopened
    have hbytes := c.flatMap_chunks records
    have hchunks : ∃ failure now, _ ∧ _ ∧ (machine.withFile machine.files place []).Fails
        ((Buffer.chunks (c.pieces records)).forM (Chunk.writeTo path)) failure _ :=
      fails_forM_writeTo hplace machine [] hopen (hbytes.symm ▸ hplace.write_eq_error h)
    obtain ⟨failure, now, hfailure, hnow, hfails⟩ := hchunks
    rw [List.nil_append, hbytes] at hnow
    exact ⟨failure, _, hfailure, .inr ⟨place, now, hplace, hnow, rfl⟩,
      (yields_fileOutcome hopened).bind_fails (hfails.bind _)⟩

end Machine

/-- Writing records has nothing to do with what is kept beside. -/
theorem Codec.writeTo_beside {α σ : Type} (c : Codec α) (path : Path) (records : List α) :
    Beside (c.writeTo path records : ExceptT Failure (StateT σ (StateM Machine)) Nat)
      (c.writeTo path records) := by
  refine (Beside.fileOutcome path _).bind fun _ =>
    (Beside.forM (fun chunk => ?_) _).bind fun _ => Beside.pure _
  refine (Beside.lift _).bind fun outcome => ?_
  cases outcome with
  | ok _ => exact Beside.pure _
  | error unwritten =>
    dsimp only
    cases chunk.waited with
    | false => exact Beside.throw _
    | true => exact (Beside.lift _).bind fun _ => Beside.throw _

end Academy
