import Academy.Proofs.Files.Dataset
import Academy.Proofs.Files.Directories

/-!
# Writing stops at the first file that fails

Seven files are written one after the other, and any of them can fail: it
may not be opened, or there may be no room for all of its text. What has
happened then is told by three lists: the collections before the one that
failed are complete and have been reported, the one that failed is named
and has a beginning of its text at most, and those after it have not been
touched. Nothing else in the tree is new but the directory and those that
lead to it.

Which file is the first to fail is not decided by the tree as it was, since
what can be kept of a file may depend on those that have been written
before it. So it is the first whose text cannot be written to the tree in
which these are (`Dataset.writeFiles`).

If links lead from one of the seven paths to another, what is written for
one collection is written over another, and the files cannot all be
complete. What is said of their contents is therefore said of directories
whose files are apart (`FileTree.Apart`), as they are where none of them is
a link (`FileTree.apart_of_unlinked`); that nothing else is touched holds of
all directories.
-/

namespace Academy

/-! ## Writing some of the collections -/

/-- A report of which no more than a state is kept, which each collection that is
written changes. -/
def keepReport {σ : Type} (step : Written → σ → σ) (written : Written) :
    StateT σ (StateM Machine) Unit :=
  modify (step written)

namespace Dataset

variable {σ : Type} {d : Dataset Identifier Instant} {dir : Path} {machine : Machine}
  {step : Written → σ → σ} {kept : σ} {c : Collection} {cs : List Collection}

theorem runBeside_writeCollection {files : FileTree}
    (h : machine.files.write (c.pathIn dir) (d.fileBytes c) = .ok files) :
    machine.runBeside kept (d.writeCollection dir (keepReport step) c)
      = ((.ok (d.written dir c), step (d.written dir c) kept), { machine with files }) := by
  have hwrite := (c.codec.writeTo_beside (c.pathIn dir) (d.records c)).yields
    (Machine.yields_writeTo h) kept
  exact (Machine.runBeside_bind hwrite).trans (Machine.runBeside_bind rfl)

/-- **A collection that cannot be written** is not reported. -/
theorem runBeside_writeCollection_error {fault : FileFault}
    (h : machine.files.write (c.pathIn dir) (d.fileBytes c) = .error fault) :
    ∃ failure files, failure.IsOf (c.pathIn dir) fault ∧
      machine.files.Cut files (c.pathIn dir) (d.fileBytes c) ∧
      machine.runBeside kept (d.writeCollection dir (keepReport step) c)
        = ((.error failure, kept), { machine with files }) := by
  obtain ⟨failure, files, hfailure, hcut, hfails⟩ := Machine.fails_writeTo h
  have hwrite := (c.codec.writeTo_beside (c.pathIn dir) (d.records c)).fails hfails kept
  exact ⟨failure, files, hfailure, hcut, Machine.runBeside_bind_error hwrite⟩

/-- What is kept after some collections have been reported, in their order. -/
def keptOf (d : Dataset Identifier Instant) (dir : Path) (step : Written → σ → σ) (kept : σ)
    (cs : List Collection) : σ :=
  (cs.map (d.written dir)).foldl (fun kept written => step written kept) kept

/-- **Some collections are written one after the other**, and each is reported when
its file is complete. -/
theorem runBeside_mapM_writeCollection {files : FileTree}
    (h : d.writeFiles dir machine.files cs = .ok files) (kept : σ) :
    machine.runBeside kept (cs.mapM (d.writeCollection dir (keepReport step)))
      = ((.ok (cs.map (d.written dir)), d.keptOf dir step kept cs), { machine with files }) := by
  induction cs generalizing machine kept with
  | nil =>
    obtain rfl : machine.files = files := Except.ok.inj h
    rfl
  | cons c cs ih =>
    obtain ⟨first, hfirst, hrest⟩ := writeFiles_cons_eq_ok h
    have hrun := @ih { machine with files := first } hrest (step (d.written dir c) kept)
    rw [List.mapM_cons, Machine.runBeside_bind (runBeside_writeCollection hfirst),
      Machine.runBeside_bind hrun]
    rfl

/-! ## Writing a dataset -/

/-- **How far a directory has been written**: the files of some collections are
complete, and at most one more has been touched. The directory is the one that is
there or has been made in the tree as it was. -/
structure WrittenUpTo (d : Dataset Identifier Instant) (dir : Path) (tree tree' : FileTree)
    (cs touched : List Collection) : Prop where
  /-- The files of these collections are complete, if those of the directory are apart. -/
  complete : (tree.createDirectories dir).1.Apart dir → ∀ c ∈ cs,
    tree'.read (c.pathIn dir) = .ok (c.codec.toBytes (d.records c))
  /-- A file that has been touched and is not complete is as it was, or has a beginning
  of its text. -/
  cut : (tree.createDirectories dir).1.Apart dir → ∀ c ∈ touched, c ∉ cs →
    ∀ place, tree'.locate (c.pathIn dir) = .ok place →
      tree.Spares tree' (Path.OnWayTo · dir) place ∨
        ∃ kept, kept <+: c.codec.toBytes (d.records c) ∧ tree'.entry? place = some (.file kept)
  /-- The files of the others are as they were. -/
  later : (tree.createDirectories dir).1.Apart dir → ∀ c ∉ touched,
    ∀ place, tree'.locate (c.pathIn dir) = .ok place →
      tree.Spares tree' (Path.OnWayTo · dir) place
  /-- So is every place to which none of those leads that have been touched. -/
  others : ∀ place, (∀ c ∈ touched, tree'.locate (c.pathIn dir) ≠ .ok place) →
    tree.Spares tree' (Path.OnWayTo · dir) place
  /-- Paths begin where they began. -/
  current : tree'.current = tree.current

theorem spares_of_entry? {tree made tree' : FileTree}
    (hmade : tree.AddsDirectories made (Path.OnWayTo · dir)) (hkeeps : made.Keeps tree')
    {place : Place} (hplace : tree'.entry? place = made.entry? place) :
    tree.Spares tree' (Path.OnWayTo · dir) place := by
  unfold FileTree.Spares
  rw [hplace]
  exact (hmade.entry place).imp_right fun ⟨hnone, hnew, path, hpath, hlocate⟩ =>
    ⟨hnone, hnew, path, hpath, hkeeps.locate hlocate⟩

/-- After the files of some collections have been written, nothing else is touched. -/
theorem Wrote.writtenUpTo {tree tree' : FileTree}
    (h : d.Wrote dir (tree.createDirectories dir).1 tree' cs) :
    d.WrittenUpTo dir tree tree' cs cs := by
  have hmade := tree.addsDirectories_createDirectories dir
  have hothers : ∀ place, (∀ c ∈ cs, tree'.locate (c.pathIn dir) ≠ .ok place) →
      tree.Spares tree' (Path.OnWayTo · dir) place := fun place hplace =>
    spares_of_entry? hmade h.keeps
      (h.entry place fun c hc hlocate => hplace c hc (h.keeps.locate hlocate))
  refine ⟨h.complete, fun _ c hc hnot => absurd hc hnot, fun hapart c hc place hplace => ?_,
    hothers, h.keeps.current.trans hmade.current⟩
  exact hothers place fun c' hc' hplace' =>
    hc (hapart.of_keeps h.keeps_back c c' place hplace hplace' ▸ hc')

/-- **After a file that has been cut**, only this one has been touched as well. -/
theorem Wrote.writtenUpTo_of_cut {tree tree' tree'' : FileTree} (hc : c ∉ cs)
    (h : d.Wrote dir (tree.createDirectories dir).1 tree' cs)
    (hcut : tree'.Cut tree'' (c.pathIn dir) (d.fileBytes c)) :
    d.WrittenUpTo dir tree tree'' cs (cs ++ [c]) := by
  have hmade := tree.addsDirectories_createDirectories dir
  have hkeeps := h.keeps.trans hcut.keeps
  have hkeeps_back := hcut.keeps_back.trans h.keeps_back
  -- what has been written before has left the place of this file alone
  have hplace_of : (tree.createDirectories dir).1.Apart dir → ∀ place,
      tree''.locate (c.pathIn dir) = .ok place → ∀ c' ∈ cs,
        (tree.createDirectories dir).1.locate (c'.pathIn dir) ≠ .ok place := by
    intro hapart place hplace c' hc' hplace'
    exact hc (hapart c c' place (hkeeps_back.locate hplace) hplace' ▸ hc')
  have hothers : ∀ place, (∀ c' ∈ cs ++ [c], tree''.locate (c'.pathIn dir) ≠ .ok place) →
      tree.Spares tree'' (Path.OnWayTo · dir) place := by
    intro place hplace
    obtain ⟨hwritten, hthis⟩ := List.forall_mem_append.mp hplace
    have hcut_entry : tree''.entry? place = tree'.entry? place := hcut.entry fun hlocate =>
      hthis c (List.mem_singleton_self c) (hcut.keeps.locate hlocate)
    have hwritten_entry := h.entry place fun c' hc' hlocate =>
      hwritten c' hc' (hkeeps.locate hlocate)
    exact spares_of_entry? hmade hkeeps (hcut_entry.trans hwritten_entry)
  refine ⟨fun hapart c' hc' => ?_, fun hapart c' hc' hnot place hplace => ?_,
    fun hapart c' hc' place hplace => ?_, hothers, hkeeps.current.trans hmade.current⟩
  · obtain ⟨place, hplace⟩ := FileTree.locate_of_read (h.complete hapart c' hc')
    refine (hcut.keeps.read_of_entry? hplace (hcut.entry fun hthis => ?_)).trans
      (h.complete hapart c' hc')
    exact hplace_of hapart place (hcut.keeps.locate hthis) c' hc' (h.keeps_back.locate hplace)
  · obtain rfl : c' = c :=
      List.mem_singleton.mp ((List.mem_append.mp hc').resolve_left hnot)
    refine (hcut.at_place (hcut.keeps_back.locate hplace)).imp_left fun hsame => ?_
    refine spares_of_entry? hmade hkeeps (hsame.trans (h.entry place ?_))
    exact hplace_of hapart place hplace
  · exact hothers place fun c'' hc'' hplace' =>
      hc' (hapart.of_keeps hkeeps_back c' c'' place hplace hplace' ▸ hc'')

/-- **Writing a dataset stops at the first file that fails.** What is reported is
kept by a state of any kind. Where the directory cannot be made, nothing is
reported and no file changes. Where the file of a collection cannot be opened or
not all of its text be written, after those of the collections before it have
been, these are complete and have been reported in their order, each once; the
failure names the path of the file that failed, which has a beginning of its text
if it has been touched at all; and every place is spared but those of the files
up to this one: the files of the later collections are as they were, and nothing
is new but the directory and those that lead to it. Where all seven can be
written, all are reported, and the numbers that are told are those of the
dataset.

What is said of the contents of the seven files holds where no two of them are
one through links. -/
theorem write_upToFault (d : Dataset Identifier Instant) (dir : Path) (machine : Machine)
    (step : Written → σ → σ) (kept : σ) :
    let made := machine.files.createDirectories dir
    let run := machine.runBeside kept (d.write dir (keepReport step))
    (∀ fault, made.2 = .error fault →
      run = ((.error (.file dir fault), kept), { machine with files := made.1 }) ∧
        d.WrittenUpTo dir machine.files made.1 [] []) ∧
    (made.2 = .ok () → ∀ before c after tree fault, Collection.all = before ++ c :: after →
      d.writeFiles dir made.1 before = .ok tree →
      tree.write (c.pathIn dir) (c.codec.toBytes (d.records c)) = .error fault →
      ∃ failure files, failure.IsOf (c.pathIn dir) fault ∧
        run = ((.error failure, d.keptOf dir step kept before), { machine with files }) ∧
        d.WrittenUpTo dir machine.files files before (before ++ [c])) ∧
    (made.2 = .ok () → ∀ tree, d.writeFiles dir made.1 Collection.all = .ok tree →
      run = ((.ok (Collection.all.map (d.written dir)), d.keptOf dir step kept Collection.all),
          { machine with files := tree }) ∧
        d.WrittenUpTo dir machine.files tree Collection.all Collection.all ∧
        (Collection.all.map (d.written dir)).map Written.count = d.counts.toList) := by
  intro made run
  have hdirectory := Beside.fileOutcome (σ := σ) dir (Host.createDirectories dir : StateM Machine _)
  have hmade : (Host.createDirectories dir : StateM Machine _).run machine
      = (made.2, { machine with files := made.1 }) := rfl
  refine ⟨fun fault hfault => ?_, fun hok before c after tree fault hall htree hfault => ?_,
    fun hok tree htree => ?_⟩
  · rw [hfault] at hmade
    exact ⟨Machine.runBeside_bind_error (hdirectory.fails (Machine.fails_fileOutcome hmade) kept),
      (Wrote.nil _).writtenUpTo⟩
  · have hnodup : (before ++ c :: after).Nodup := hall ▸ (by decide)
    have hc : c ∉ before := fun hc =>
      (List.nodup_append.mp hnodup).2.2 c hc c List.mem_cons_self rfl
    rw [hok] at hmade
    have hbefore := @runBeside_mapM_writeCollection _ d dir { machine with files := made.1 } step
      before tree htree kept
    obtain ⟨failure, files, hfailure, hcut, hrun⟩ := @runBeside_writeCollection_error _ d dir
      { machine with files := tree } step (d.keptOf dir step kept before) c fault hfault
    refine ⟨failure, files, hfailure, ?_, (wrote_of_writeFiles htree).writtenUpTo_of_cut hc hcut⟩
    have hopened := hdirectory.yields (Machine.yields_fileOutcome hmade) kept
    refine (Machine.runBeside_bind hopened).trans ?_
    rw [hall, List.mapM_append, Machine.runBeside_bind hbefore, List.mapM_cons]
    exact Machine.runBeside_bind_error (Machine.runBeside_bind_error hrun)
  · rw [hok] at hmade
    refine ⟨?_, (wrote_of_writeFiles htree).writtenUpTo, rfl⟩
    have hopened := hdirectory.yields (Machine.yields_fileOutcome hmade) kept
    refine (Machine.runBeside_bind hopened).trans ?_
    exact @runBeside_mapM_writeCollection _ d dir { machine with files := made.1 } step
      Collection.all tree htree kept

/-- A directory in which there is room for a few bytes of the enrollments, and from
which the students are a link to a file elsewhere. -/
theorem write_upToFault_enrollments :
    let d : Dataset Identifier Instant :=
      { categories := [⟨⟨1⟩, "Design", "Forms"⟩]
        enrollments :=
          [⟨⟨2⟩, ⟨3⟩, ⟨4⟩, ⟨1700000000, 0, .inl (by decide)⟩, .inProgress, 10, none, none⟩] }
    let files : FileTree :=
      { entries := [(["data"], .directory), (["data", "old.json"], .file [0x0A]),
          (["out"], .directory), (["out", "students.json"], .link "../data/old.json"),
          (["out", "enrollments.json"], .file [0x0A, 0x0A])]
        allowance := fun _ place =>
          if place = ["out", "enrollments.json"] then .upTo 16 .storageFull else .all }
    let machine : Machine := ⟨files, [], ⟨1700000000, 0, .inl (by decide)⟩,
      ⟨7, 0, fun _ => 1700000000⟩, .ofSeed 42, ""⟩
    let first : List Collection := [.categories, .instructors, .students, .courses]
    files.Apart "out" ∧ ∃ failure after, failure.IsOf "out/enrollments.json" .storageFull ∧
      machine.runBeside [] (d.write "out" (keepReport fun written kept => kept ++ [written]))
        = ((.error failure, first.map (d.written "out")), { machine with files := after }) ∧
      d.WrittenUpTo "out" files after first (first ++ [.enrollments]) := by
  intro d files machine first
  have hcreate : files.createDirectories "out" = (files, .ok ()) :=
    FileTree.createDirectories_of_isDirectory (by decide +kernel)
  let place : Collection → Place := fun c =>
    if c = .students then ["data", "old.json"] else ["out", c.fileName]
  have hplace : ∀ c : Collection, files.FilePlace (c.pathIn "out") (place c) := by
    intro c
    cases c <;> exact ⟨⟨["out"], by decide +kernel⟩, by decide +kernel, by decide +kernel,
      by decide +kernel⟩
  have hne : ∀ c c', place c = place c' → c = c' := by
    intro c c'
    cases c <;> cases c' <;> decide
  have hroom : ∀ c ∈ first, ∀ entries, files.allowance entries (place c) = .all := by
    simp only [first, List.forall_mem_cons]
    exact ⟨fun _ => rfl, fun _ => rfl, fun _ => rfl, fun _ => rfl, nofun⟩
  obtain ⟨tree, htree, hallowance, hplaces⟩ := d.exists_writeFiles hplace hroom
  have hfault : tree.write (Collection.enrollments.pathIn "out")
      (Collection.enrollments.codec.toBytes (d.records .enrollments)) = .error .storageFull := by
    have hlong : 16 < (Collection.enrollments.codec.toBytes (d.records .enrollments)).length := by
      decide +kernel
    have hallowed : tree.allowed (place .enrollments) = .upTo 16 .storageFull := by
      unfold FileTree.allowed
      rw [hallowance]
      rfl
    rw [(hplaces .enrollments).write, hallowed, Allowance.fault?_upTo_of_lt hlong]
  have hrun := (write_upToFault d "out" machine (fun written kept => kept ++ [written]) []).2.1
  rw [hcreate] at hrun
  exact ⟨FileTree.apart_of_filePlaces hplace hne,
    hrun rfl first .enrollments [.reviews, .payments] tree .storageFull rfl htree hfault⟩

end Dataset

end Academy
