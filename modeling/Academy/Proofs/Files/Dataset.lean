import Academy.Proofs.Files.Buffer

/-!
# Datasets are kept in files

On a machine, writing a collection makes one file and reading it changes
nothing. Where the seven files of a directory are at different places, each
of them holds what was written for it after all have been written, and
what was there before does not matter: a file that is written is made
anew.

They are at different places unless links lead from one to the other
(`apart_of_unlinked`). What is asked of the directory (`CanHold`) is that it
can be made, or is there, that its files are apart, and that those of the
dataset can be written in it one after the other.
-/

namespace Academy

/-! ## Files of records -/

namespace Machine

variable {α β : Type} {machine after : Machine} {path : Path} {b : β}
  {c : Codec α} {records : List α}

/-- **Records are read** from the bytes of a file. -/
theorem yields_readFrom {bytes : List UInt8} (hread : machine.files.read path = .ok bytes)
    (hrecords : c.ofBytes bytes = .ok records) :
    machine.Yields (c.readFrom path) records machine := by
  have hbytes : (Host.readFile path : StateM Machine _).run machine = (.ok bytes, machine) := by
    show (machine.files.read path, machine) = _
    rw [hread]
  refine (yields_fileOutcome hbytes).bind ?_
  rw [hrecords]
  exact yields_pure records

/-- **Records that are read** are those of a file, and what comes next begins with
the machine as it was. -/
theorem Yields.of_readFrom {next : List α → ExceptT Failure (StateM Machine) β}
    (h : machine.Yields (c.readFrom path >>= next) b after) :
    ∃ records, (∃ bytes, machine.files.read path = .ok bytes ∧ c.ofBytes bytes = .ok records) ∧
      machine.Yields (next records) b after := by
  obtain ⟨records, middle, hrecords, h⟩ := h.of_bind
  obtain ⟨bytes, same, hbytes, hrecords⟩ := hrecords.of_bind
  have hfile : (machine.files.read path, machine) = (.ok bytes, same) := hbytes.of_fileOutcome
  obtain ⟨hread, rfl⟩ := Prod.mk.inj hfile
  cases hparts : c.ofBytes bytes with
  | error fault =>
    rw [hparts] at hrecords
    exact nomatch congrArg Prod.fst hrecords
  | ok found =>
    rw [hparts] at hrecords
    obtain ⟨hsame, rfl⟩ := Prod.mk.inj hrecords
    exact ⟨records, ⟨bytes, hread, hparts.trans (congrArg _ (Except.ok.inj hsame))⟩, h⟩

end Machine

/-! ## Collections -/

/-- The bytes of a collection's file are read as its records. -/
theorem Collection.ofBytes_toBytes (c : Collection)
    {rs : List (Dataset.Record Identifier Instant c)} (h : ∀ r ∈ rs, Dataset.Record.Storable c r) :
    c.codec.ofBytes (c.codec.toBytes rs)
      = .ok (rs.map (Dataset.Record.mapDates Instant.truncate c)) :=
  Codec.ofBytes_toBytes fun r hr => ⟨c.restores (h r hr), c.braced r⟩

/-- **What a collection is in a file.** There is a line for each of its records,
ended by a line feed and with no line feed or carriage return in it,
whatever strings the records have; and reading the file gives the records
with their dates cut off. -/
theorem Collection.file_readsBack (c : Collection)
    {rs : List (Dataset.Record Identifier Instant c)} (h : ∀ r ∈ rs, Dataset.Record.Storable c r) :
    c.codec.toBytes rs = (rs.map c.codec.line).flatMap (· ++ [0x0A]) ∧
      (∀ r ∈ rs, 0x0A ∉ c.codec.line r ∧ 0x0D ∉ c.codec.line r) ∧
      c.codec.ofBytes (c.codec.toBytes rs)
        = .ok (rs.map (Dataset.Record.mapDates Instant.truncate c)) ∧
      ∀ (machine : Machine) (path : Path) (files : FileTree),
        machine.files.write path (c.codec.toBytes rs) = .ok files →
          machine.Yields (c.codec.writeTo path rs) rs.length { machine with files } ∧
            Machine.Yields { machine with files } (c.codec.readFrom path)
              (rs.map (Dataset.Record.mapDates Instant.truncate c)) { machine with files } := by
  have hplain := fun r b hb => c.codec.plainByte_of_mem_line r b hb
  refine ⟨c.codec.toBytes_eq rs, fun r _ => ⟨fun hb => ?_, fun hb => ?_⟩, c.ofBytes_toBytes h, ?_⟩
  · exact absurd (hplain r _ hb) (by decide)
  · exact absurd (hplain r _ hb) (by decide)
  · intro machine path files hwrite
    exact ⟨Machine.yields_writeTo hwrite,
      Machine.yields_readFrom (FileTree.read_of_write hwrite) (c.ofBytes_toBytes h)⟩

/-- A payment whose strings have quotes, line ends and separators in them. -/
theorem Collection.file_readsBack_payment :
    let p : Payment Identifier Instant := ⟨⟨1⟩, ⟨2⟩, ⟨3⟩, 99.99, "\"USD\\\"",
      ⟨1704164645, 678901234, .inl (by decide)⟩, "card\r\n\t", .completed, "\u0085\u2028"⟩
    Dataset.Record.Storable .payments p ∧
      Payment.codec.ofBytes (Payment.codec.toBytes [p])
        = .ok [{ p with paidAt := p.paidAt.truncate }] := by
  intro p
  have hp : Dataset.Record.Storable .payments p :=
    ⟨List.forall_mem_singleton.mpr (by decide), List.forall_mem_singleton.mpr (by decide +kernel)⟩
  exact ⟨hp, (Collection.file_readsBack .payments (List.forall_mem_singleton.mpr hp)).2.2.1⟩

/-! ## Directories -/

theorem Collection.isName_fileName (c : Collection) : Path.IsName c.fileName where
  ne_nil := by cases c <;> decide
  no_slash := by
    have hall : (c.fileName.toList.all fun r => !decide (r = '/')) = true := by
      cases c <;> decide
    intro r hr
    exact (Bool.not_eq_true' _).mp (List.all_eq_true.mp hall r hr)
  ne_dots := by cases c <;> decide

theorem Collection.fileName_inj {c c' : Collection} (h : c.fileName = c'.fileName) : c = c' := by
  revert h
  cases c <;> cases c' <;> decide

namespace FileTree

variable {tree tree' : FileTree} {dir : Path} {place : Place}

/-- **The files of a directory are apart**: no two of their paths lead to one place. -/
def Apart (tree : FileTree) (dir : Path) : Prop :=
  ∀ (c c' : Collection) (place : Place), tree.locate (c.pathIn dir) = .ok place →
    tree.locate (c'.pathIn dir) = .ok place → c = c'

/-- None of the files of a directory is a link there. -/
def Unlinked (tree : FileTree) (dir : Path) : Prop :=
  ∀ (c : Collection) (above : Place), tree.locateParent (c.pathIn dir) = .ok above →
    tree.link? (above ++ [c.fileName]) = none

/-- **Files that are no links are apart**, since their places end with their names. -/
theorem apart_of_unlinked (h : tree.Unlinked dir) : tree.Apart dir := by
  have hlast : ∀ (c : Collection) (place : Place), tree.locate (c.pathIn dir) = .ok place →
      place.getLast? = some c.fileName := by
    intro c place hplace
    have hname := c.isName_fileName
    obtain ⟨hpart, hdot, hdots⟩ := Path.lastName?_eq_some_iff.mp (Path.lastName?_join hname dir)
    obtain ⟨above, next, hparent, -, hnext, hsame⟩ := exists_parent_of_locate hpart hplace
    obtain rfl := (enter_eq_ok hnext).2 hdot hdots
    rw [hsame (h c above hparent), List.getLast?_concat]
  intro c c' place hplace hplace'
  have hnames := (hlast c place hplace).symm.trans (hlast c' place hplace')
  exact Collection.fileName_inj (Option.some.inj hnames)

theorem Apart.of_keeps (hapart : tree.Apart dir) (h : tree'.Keeps tree) : tree'.Apart dir :=
  fun c c' place hplace hplace' => hapart c c' place (h.locate hplace) (h.locate hplace')

end FileTree

namespace Dataset

variable {d : Dataset Identifier Instant} {dir : Path} {machine : Machine}
  {tree tree' tree'' : FileTree} {c : Collection} {cs : List Collection}
  {report : Written → StateM Machine Unit}

/-- The bytes of a collection's file. -/
def fileBytes (d : Dataset Identifier Instant) (c : Collection) : List UInt8 :=
  c.codec.toBytes (d.records c)

/-- **The files of some collections**, made one after the other. -/
def writeFiles (d : Dataset Identifier Instant) (dir : Path) (tree : FileTree)
    (cs : List Collection) : Except FileFault FileTree :=
  cs.foldlM (fun tree c => tree.write (c.pathIn dir) (d.fileBytes c)) tree

theorem writeFiles_cons_eq_ok (h : d.writeFiles dir tree (c :: cs) = .ok tree') :
    ∃ first, tree.write (c.pathIn dir) (d.fileBytes c) = .ok first ∧
      d.writeFiles dir first cs = .ok tree' := by
  unfold writeFiles at h
  rw [List.foldlM_cons] at h
  rcases hfirst : tree.write (c.pathIn dir) (d.fileBytes c) with fault | first
  · rw [hfirst] at h
    exact nomatch h
  · rw [hfirst] at h
    exact ⟨first, rfl, h⟩

/-- **The files of some collections, and nothing else, have been written.** -/
structure Wrote (d : Dataset Identifier Instant) (dir : Path) (tree tree' : FileTree)
    (cs : List Collection) : Prop where
  /-- They are complete, if they are not written over one another. -/
  complete : tree.Apart dir → ∀ c ∈ cs, tree'.read (c.pathIn dir) = .ok (d.fileBytes c)
  /-- Every other place is left alone. -/
  entry : ∀ place, (∀ c ∈ cs, tree.locate (c.pathIn dir) ≠ .ok place) →
    tree'.entry? place = tree.entry? place
  /-- Directories and links stay. -/
  keeps : tree.Keeps tree'
  /-- None has come about. -/
  keeps_back : tree'.Keeps tree

theorem Wrote.nil (tree : FileTree) : d.Wrote dir tree tree [] :=
  ⟨fun _ => nofun, fun _ _ => rfl, .refl _, .refl _⟩

/-- What is read is what was read where nothing is written. -/
theorem Wrote.read_of_ne (h : d.Wrote dir tree tree' cs) (hapart : tree.Apart dir) (hc : c ∉ cs)
    {place : Place} (hplace : tree.FilePlace (c.pathIn dir) place) :
    tree'.read (c.pathIn dir) = tree.read (c.pathIn dir) :=
  h.keeps.read_of_entry? hplace.locate (h.entry place fun c' hc' hplace' =>
    hc (hapart c c' place hplace.locate hplace' ▸ hc'))

/-- **One more collection** before the others. -/
theorem Wrote.cons (hwrite : tree.write (c.pathIn dir) (d.fileBytes c) = .ok tree')
    (h : d.Wrote dir tree' tree'' cs) : d.Wrote dir tree tree'' (c :: cs) := by
  obtain ⟨place, hplace, -, rfl⟩ := FileTree.write_cases hwrite
  have hkeeps := hplace.keeps (d.fileBytes c)
  have hkeeps_back := hplace.keeps_back (d.fileBytes c)
  refine ⟨fun hapart c' hc' => ?_, fun other hother => ?_, hkeeps.trans h.keeps,
    h.keeps_back.trans hkeeps_back⟩
  · have hapart' := hapart.of_keeps hkeeps_back
    -- of a collection that occurs again, the last file counts
    by_cases hmem : c' ∈ cs
    · exact h.complete hapart' c' hmem
    · obtain rfl : c' = c := (List.mem_cons.mp hc').resolve_right hmem
      rw [h.read_of_ne hapart' hmem (hplace.put hplace _), hplace.read_put]
  · obtain ⟨hfirst, hrest⟩ := List.forall_mem_cons.mp hother
    rw [h.entry other fun c' hc' hlocate => hrest c' hc' (hkeeps_back.locate hlocate),
      FileTree.entry?_put_of_ne]
    rintro rfl
    exact hfirst hplace.locate

/-- **Files that are made one after the other** are written, and nothing else is. -/
theorem wrote_of_writeFiles (h : d.writeFiles dir tree cs = .ok tree') :
    d.Wrote dir tree tree' cs := by
  induction cs generalizing tree with
  | nil =>
    obtain rfl : tree = tree' := Except.ok.inj h
    exact .nil tree
  | cons c cs ih =>
    obtain ⟨first, hfirst, hrest⟩ := writeFiles_cons_eq_ok h
    exact .cons hfirst (ih hrest)

end Dataset

/-- **A directory in which a dataset can be kept**: it can be made, its files are
apart, and those of the dataset can be written in it, whatever was there. -/
structure FileTree.CanHold (tree : FileTree) (dir : Path) (d : Dataset Identifier Instant) :
    Prop where
  /-- The directory is there, or can be made. -/
  made : (tree.createDirectories dir).2 = .ok ()
  /-- No two of its files are the same. -/
  apart : (tree.createDirectories dir).1.Apart dir
  /-- The files can be written one after the other. -/
  written : ∃ files, d.writeFiles dir (tree.createDirectories dir).1 Collection.all = .ok files

/-- **Files can be written at their places**, if anything can be kept there, and all of
them have their places still. -/
theorem Dataset.exists_writeFiles {tree : FileTree} {dir : Path} {place : Collection → Place}
    (hplace : ∀ c : Collection, tree.FilePlace (c.pathIn dir) (place c)) {cs : List Collection}
    (hall : ∀ c ∈ cs, ∀ entries, tree.allowance entries (place c) = .all)
    (d : Dataset Identifier Instant) :
    ∃ files, d.writeFiles dir tree cs = .ok files ∧ files.allowance = tree.allowance ∧
      ∀ c : Collection, files.FilePlace (c.pathIn dir) (place c) := by
  induction cs generalizing tree with
  | nil => exact ⟨tree, rfl, rfl, hplace⟩
  | cons c cs ih =>
    obtain ⟨hfirst, hrest⟩ := List.forall_mem_cons.mp hall
    have hwrite := (hplace c).write (d.fileBytes c)
    rw [show tree.allowed (place c) = .all from hfirst _] at hwrite
    obtain ⟨files, hfiles, hallowance, hplaces⟩ :=
      @ih (tree.put (place c) (.file (d.fileBytes c))) (fun c' => (hplace c).put (hplace c') _)
        hrest
    refine ⟨files, ?_, hallowance, hplaces⟩
    unfold writeFiles at hfiles ⊢
    rw [List.foldlM_cons, hwrite]
    exact hfiles

/-- Files that have different places are apart. -/
theorem FileTree.apart_of_filePlaces {tree : FileTree} {dir : Path} {place : Collection → Place}
    (hplace : ∀ c : Collection, tree.FilePlace (c.pathIn dir) (place c))
    (hne : ∀ c c', place c = place c' → c = c') : tree.Apart dir := by
  intro c c' other hother hother'
  refine hne c c' ?_
  rw [Except.ok.inj ((hplace c).locate.symm.trans hother),
    Except.ok.inj ((hplace c').locate.symm.trans hother')]

/-- **A directory with a place for each of the files**, at which anything can be kept,
can hold any dataset. -/
theorem FileTree.canHold_of_filePlaces {tree : FileTree} {dir : Path}
    (hdir : tree.isDirectory dir = true) {place : Collection → Place}
    (hplace : ∀ c : Collection, tree.FilePlace (c.pathIn dir) (place c))
    (hne : ∀ c c', place c = place c' → c = c')
    (hall : ∀ entries place, tree.allowance entries place = .all)
    (d : Dataset Identifier Instant) : tree.CanHold dir d := by
  have hmade := createDirectories_of_isDirectory hdir
  obtain ⟨files, hfiles, -⟩ := d.exists_writeFiles hplace fun c (_ : c ∈ Collection.all) entries =>
    hall entries (place c)
  refine ⟨?_, ?_, ?_⟩ <;> rw [hmade]
  · exact apart_of_filePlaces hplace hne
  · exact ⟨files, hfiles⟩

namespace Dataset

variable {d : Dataset Identifier Instant} {dir : Path} {machine : Machine} {c : Collection}
  {cs : List Collection} {files : FileTree} {report : Written → StateM Machine Unit}

/-- What is told of a collection that has been written. -/
def written (d : Dataset Identifier Instant) (dir : Path) (c : Collection) : Written :=
  ⟨c, c.pathIn dir, (d.records c).length⟩

/-- A report that leaves the files alone. -/
def KeepsFiles (report : Written → StateM Machine Unit) : Prop :=
  ∀ written machine, ((report written).run machine).2.files = machine.files

/-- **Writing a collection** makes its file. -/
theorem yields_writeCollection (hreport : KeepsFiles report)
    (h : machine.files.write (c.pathIn dir) (d.fileBytes c) = .ok files) :
    ∃ after, machine.Yields (d.writeCollection dir report c) (d.written dir c) after ∧
      after.files = files :=
  ⟨_, (Machine.yields_writeTo h).bind ((Machine.yields_lift _).bind (Machine.yields_pure _)),
    hreport _ _⟩

/-- **Writing some collections** makes their files, one after the other. -/
theorem yields_mapM_writeCollection (hreport : KeepsFiles report)
    (h : d.writeFiles dir machine.files cs = .ok files) :
    ∃ after, machine.Yields (cs.mapM (d.writeCollection dir report)) (cs.map (d.written dir))
        after ∧ after.files = files := by
  induction cs generalizing machine with
  | nil => exact ⟨machine, Machine.yields_pure _, Except.ok.inj h⟩
  | cons c cs ih =>
    obtain ⟨first, hfirst, hrest⟩ := writeFiles_cons_eq_ok h
    obtain ⟨middle, hwrite, rfl⟩ := yields_writeCollection hreport hfirst
    obtain ⟨after, hwrites, hafter⟩ := ih hrest
    refine ⟨after, ?_, hafter⟩
    rw [List.mapM_cons]
    exact hwrite.bind (hwrites.bind (Machine.yields_pure _))

/-- **A dataset is written** to a directory that can hold it, and each of its
collections is in its file. -/
theorem yields_write (hreport : KeepsFiles report) (h : machine.files.CanHold dir d) :
    ∃ after, machine.Yields (d.write dir report) (Collection.all.map (d.written dir)) after ∧
      ∀ c : Collection,
        after.files.read (c.pathIn dir) = .ok (c.codec.toBytes (d.records c)) := by
  obtain ⟨files, hfiles⟩ := h.written
  have hmade : (Host.createDirectories dir : StateM Machine _).run machine
      = (.ok (), { machine with files := (machine.files.createDirectories dir).1 }) := by
    rw [← h.made]
    rfl
  obtain ⟨after, hwritten, rfl⟩ := @yields_mapM_writeCollection _ _
    { machine with files := (machine.files.createDirectories dir).1 } _ _ _ hreport hfiles
  exact ⟨after, (Machine.yields_fileOutcome hmade).bind hwritten,
    fun c => (wrote_of_writeFiles hfiles).complete h.apart c (by cases c <;> decide)⟩

/-- **A dataset is read** from the files that hold its collections. -/
theorem yields_read {d' : Dataset Identifier Instant}
    (h : ∀ c : Collection, ∃ bytes, machine.files.read (c.pathIn dir) = .ok bytes ∧
      c.codec.ofBytes bytes = .ok (d'.records c)) :
    machine.Yields (Dataset.read dir) d' machine := by
  have hfile : ∀ c : Collection,
      machine.Yields (c.codec.readFrom (c.pathIn dir)) (d'.records c) machine := by
    intro c
    obtain ⟨bytes, hread, hrecords⟩ := h c
    exact Machine.yields_readFrom hread hrecords
  exact (hfile .categories).bind ((hfile .instructors).bind ((hfile .students).bind
    ((hfile .courses).bind ((hfile .enrollments).bind ((hfile .reviews).bind
      ((hfile .payments).bind (Machine.yields_pure _)))))))

/-- **A dataset that is read** is what the files of the directory hold, and nothing
changes. -/
theorem of_yields_read {d' : Dataset Identifier Instant} {after : Machine}
    (h : machine.Yields (Dataset.read dir) d' after) :
    after = machine ∧ ∀ c : Collection, ∃ bytes, machine.files.read (c.pathIn dir) = .ok bytes ∧
      c.codec.ofBytes bytes = .ok (d'.records c) := by
  obtain ⟨categories, hcategories, h⟩ := h.of_readFrom
  obtain ⟨instructors, hinstructors, h⟩ := h.of_readFrom
  obtain ⟨students, hstudents, h⟩ := h.of_readFrom
  obtain ⟨courses, hcourses, h⟩ := h.of_readFrom
  obtain ⟨enrollments, henrollments, h⟩ := h.of_readFrom
  obtain ⟨reviews, hreviews, h⟩ := h.of_readFrom
  obtain ⟨payments, hpayments, h⟩ := h.of_readFrom
  obtain ⟨hd, rfl⟩ := Prod.mk.inj h
  obtain rfl := Except.ok.inj hd
  refine ⟨rfl, fun c => ?_⟩
  cases c with
  | categories => exact hcategories
  | instructors => exact hinstructors
  | students => exact hstudents
  | courses => exact hcourses
  | enrollments => exact henrollments
  | reviews => exact hreviews
  | payments => exact hpayments

/-- **A dataset that is written is read**, with its dates cut off. -/
theorem yields_write_read (hreport : KeepsFiles report) (hdir : machine.files.CanHold dir d)
    (hd : d.Storable) :
    ∃ after, machine.Yields (d.write dir report) (Collection.all.map (d.written dir)) after ∧
      after.Yields (Dataset.read dir) (d.mapDates Instant.truncate) after := by
  obtain ⟨after, hwritten, hfiles⟩ := yields_write hreport hdir
  refine ⟨after, hwritten, yields_read fun c => ⟨_, hfiles c, ?_⟩⟩
  rw [c.ofBytes_toBytes (hd c)]
  cases c <;> rfl

end Dataset

end Academy
