import Academy.Proofs.Files.Tree

/-!
# What making directories changes

A directory is made together with those that lead to it, as far as they
are not there. Nothing else is changed, whether or not this succeeds: what
was at a place before is there afterwards, and what is new is a directory
at a place on the way.
-/

namespace Academy

/-- The paths at which directories are made on the way to a directory: its own,
and those of the first of its parts. -/
def Path.OnWayTo (path : Path) (dir : Path) : Prop :=
  path = dir ∨ ∃ above, above <+: dir.namedParts ∧ path = Path.ofParts dir.fromRoot above

namespace FileTree

variable {tree tree' tree'' : FileTree} {path : Path} {ways ways' : Path → Prop}

/-- **A place is spared**: what was there is there still, or there was nothing and
there is a directory now, to which one of the given paths leads. -/
def Spares (tree tree' : FileTree) (ways : Path → Prop) (place : Place) : Prop :=
  tree'.entry? place = tree.entry? place ∨
    tree.entry? place = none ∧ tree'.entry? place = some .directory ∧
      ∃ path, ways path ∧ tree'.locate path = .ok place

/-- **What is there stays, and what is new are directories**, to which some of the
given paths lead. -/
structure AddsDirectories (tree tree' : FileTree) (ways : Path → Prop) : Prop where
  /-- Every place is spared. -/
  entry : ∀ place, tree.Spares tree' ways place
  /-- Links lead on as they did. -/
  link : ∀ place, tree'.link? place = tree.link? place
  /-- Paths begin where they began. -/
  current : tree'.current = tree.current

namespace AddsDirectories

theorem refl (tree : FileTree) : tree.AddsDirectories tree ways :=
  ⟨fun _ => .inl rfl, fun _ => rfl, rfl⟩

theorem keeps (h : tree.AddsDirectories tree' ways) : tree.Keeps tree' where
  directory place hplace := by
    rcases h.entry place with hsame | ⟨hnone, -⟩
    · rw [hsame, hplace]
    · exact nomatch hnone.symm.trans hplace
  link := h.link
  current := h.current

theorem mono (h : tree.AddsDirectories tree' ways) (hways : ∀ path, ways path → ways' path) :
    tree.AddsDirectories tree' ways' where
  entry place := (h.entry place).imp_right fun ⟨hnone, hnew, path, hpath, hlocate⟩ =>
    ⟨hnone, hnew, path, hways path hpath, hlocate⟩
  link := h.link
  current := h.current

theorem trans (h : tree.AddsDirectories tree' ways) (h' : tree'.AddsDirectories tree'' ways) :
    tree.AddsDirectories tree'' ways where
  entry place := by
    rcases h.entry place with hsame | ⟨hnone, hnew, path, hpath, hlocate⟩
    · unfold Spares
      rw [← hsame]
      exact h'.entry place
    · exact .inr ⟨hnone, h'.keeps.directory place hnew, path, hpath, h'.keeps.locate hlocate⟩
  link place := (h'.link place).trans (h.link place)
  current := h'.current.trans h.current

end AddsDirectories

/-- **A directory that is made** is the only thing that is new. -/
theorem addsDirectories_of_createDirectory (h : tree.createDirectory path = .ok tree') :
    tree.AddsDirectories tree' (· = path) := by
  obtain ⟨place, hlocated, hnone, rfl⟩ := createDirectory_eq_ok h
  obtain ⟨above, name, hparent, hname, hnext⟩ := locateNew_eq_some_iff.mp hlocated
  have hne : place ≠ [] := by
    rintro rfl
    exact nomatch hnone
  have hkeeps : tree.Keeps (tree.put place .directory) :=
    keeps_put (by rw [hnone]; exact nofun) (link?_of_none hnone) nofun
  -- there is a directory at the place now, and no link
  have hlocate : (tree.put place .directory).locate path = .ok place :=
    locate_of_parent (Path.lastName?_eq_some_iff.mp hname).1 (hkeeps.follow hparent)
      (hkeeps.enter hnext) (link?_of_directory (entry?_put_self hne _))
  refine ⟨fun other => ?_, hkeeps.link, rfl⟩
  by_cases hother : other = place
  · subst hother
    exact .inr ⟨hnone, entry?_put_self hne _, path, rfl, hlocate⟩
  · exact .inl (entry?_put_of_ne hother _)

theorem addsDirectories_settle (tree : FileTree) (path : Path) :
    tree.AddsDirectories (tree.settle path (tree.createDirectory path)).1 (· = path) := by
  cases hcreate : tree.createDirectory path with
  | ok made => exact addsDirectories_of_createDirectory hcreate
  | error fault => exact .refl tree

/-- Directories are made at the path and at the first of its parts only. -/
theorem addsDirectories_createParents (fromRoot : Bool) (path : Path) (parts : List String)
    (tree : FileTree) :
    tree.AddsDirectories (createParents fromRoot path parts tree).1 fun p =>
      p = path ∨ ∃ above, above <+: parts ∧ p = Path.ofParts fromRoot above := by
  have hway : ∀ {parts above : List String} {p : Path}, above <+: parts →
      (p = Path.ofParts fromRoot above ∨
          ∃ first, first <+: above ∧ p = Path.ofParts fromRoot first) →
        ∃ above, above <+: parts ∧ p = Path.ofParts fromRoot above := by
    rintro parts above p habove (rfl | ⟨first, hfirst, rfl⟩)
    · exact ⟨above, habove, rfl⟩
    · exact ⟨first, hfirst.trans habove, rfl⟩
  fun_induction createParents fromRoot path parts tree with
  | case1 => exact .refl _
  | case2 path hempty part rest hmissing above made fault hfails ih =>
    rw [hfails] at ih
    exact ih.mono fun p hp => .inr (hway (List.dropLast_prefix _) hp)
  | case3 path hempty part rest hmissing above made hmade ih =>
    rw [hmade] at ih
    exact (ih.mono fun p hp => .inr (hway (List.dropLast_prefix _) hp)).trans
      ((addsDirectories_settle made path).mono fun p hp => .inl hp)
  | case4 path parts hempty _ => exact (addsDirectories_settle tree path).mono fun p hp => .inl hp

/-- **Making a directory changes nothing but what leads to it**, also where it
fails. -/
theorem addsDirectories_createDirectories (tree : FileTree) (dir : Path) :
    tree.AddsDirectories (tree.createDirectories dir).1 (Path.OnWayTo · dir) :=
  addsDirectories_createParents dir.fromRoot dir dir.namedParts tree

end FileTree

end Academy
