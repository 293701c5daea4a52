import Academy.Files.Tree
import Academy.Proofs.Text.Words

/-!
# Files stay where they are written

Where a path leads depends on which places are directories and which are
links, and on nothing else that a file could change: a file is made only
where there is neither, so every path that led somewhere before leads there
afterwards (`Keeps`). A path at which a file can be made (`FilePlace`) is
therefore one at which it can be read again and made again, and so is every
other such path, whose file is the same as before unless it is the same file.

What a file has after bytes have been added to it one after the other is
what it has when they are added at once, and the same fault ends both. That
is so because the fault depends on the length of the file only, and a longer
file is not kept where a shorter one is not (`Allowance.fault?_mono`).

Paths into one directory lead to different places if their last names
differ and none of them is that of a link, since a place that is led to by
such a name ends with it.
-/

namespace Academy

/-! ## The last part of a path -/

namespace Path

/-- A text that can be the name of a file in any directory. -/
structure IsName (name : String) : Prop where
  /-- It is not empty. -/
  ne_nil : name.toList ≠ []
  /-- It has no parts. -/
  no_slash : ∀ c ∈ name.toList, decide (c = '/') = false
  /-- It does not stand for a directory. -/
  ne_dots : name ≠ "." ∧ name ≠ ".."

theorem parts_of_append (s : List Char) : ∃ above, ∀ {name : String}, IsName name →
    ∀ {path : Path}, path.toList = s ++ '/' :: name.toList → path.parts = above ++ [name] := by
  refine ⟨(wordsBetween (fun c => decide (c = '/')) s).map String.ofList,
    fun {name} hname {path} hpath => ?_⟩
  unfold parts
  rw [hpath, wordsBetween_append_gap (decide_eq_true rfl),
    wordsBetween_of_noGap hname.ne_nil hname.no_slash, List.map_append, List.map_singleton,
    String.ofList_toList]

/-- **The parts of a path into a directory** are those of the directory and the
name. -/
theorem parts_join (dir : Path) :
    ∃ above, ∀ {name : String}, IsName name → (dir.join name).parts = above ++ [name] := by
  unfold join
  by_cases hempty : dir.isEmpty = true
  · refine ⟨[], fun {name} hname => ?_⟩
    rw [hempty, Bool.true_or, if_pos rfl, String.isEmpty_iff.mp hempty, String.empty_append]
    unfold parts
    rw [wordsBetween_of_noGap hname.ne_nil hname.no_slash, List.map_singleton,
      String.ofList_toList]
    rfl
  · by_cases hslashed : slashed dir = true
    · obtain ⟨s, hs⟩ := List.getLast?_eq_some_iff.mp (of_decide_eq_true hslashed)
      obtain ⟨above, habove⟩ := parts_of_append s
      refine ⟨above, fun {name} hname => ?_⟩
      rw [hslashed, Bool.or_true, if_pos rfl]
      refine habove hname ?_
      rw [String.toList_append, hs, List.append_assoc, List.singleton_append]
    · obtain ⟨above, habove⟩ := parts_of_append dir.toList
      refine ⟨above, fun {name} hname => ?_⟩
      rw [if_neg (by rw [Bool.or_eq_true]; exact not_or.mpr ⟨hempty, hslashed⟩)]
      refine habove hname ?_
      rw [String.toList_append, String.toList_append, List.append_assoc]
      rfl

theorem lastName?_eq_some_iff {path : Path} {name : String} :
    path.lastName? = some name ↔ path.parts.getLast? = some name ∧ name ≠ "." ∧ name ≠ ".." := by
  unfold lastName?
  rw [Option.filter_eq_some_iff]
  simp

/-- **The last part of a path into a directory** is the name. -/
theorem lastName?_join {name : String} (h : IsName name) (dir : Path) :
    (dir.join name).lastName? = some name := by
  obtain ⟨above, habove⟩ := parts_join dir
  rw [lastName?_eq_some_iff, habove h, List.getLast?_concat]
  exact ⟨rfl, h.ne_dots⟩

end Path

/-! ## What can be kept -/

namespace Allowance

variable {allowance : Allowance} {kept bytes : List UInt8}

/-- **A longer file is not kept where a shorter one is not**, for the same reason. -/
theorem fault?_mono {fault : FileFault} {length length' : Nat}
    (h : allowance.fault? length = some fault) (hlength : length ≤ length') :
    allowance.fault? length' = some fault := by
  cases allowance with
  | all => exact nomatch h
  | upTo size why =>
    have h : (if length ≤ size then none else some why) = some fault := h
    show (if length' ≤ size then none else some why) = some fault
    split at h
    · exact nomatch h
    · next hsize => rw [if_neg (by omega), h]
  | nothing why => exact h

theorem fault?_eq_none_mono {length length' : Nat} (h : allowance.fault? length' = none)
    (hlength : length ≤ length') : allowance.fault? length = none := by
  cases hfault : allowance.fault? length with
  | none => rfl
  | some fault => exact nomatch h.symm.trans (fault?_mono hfault hlength)

theorem fault?_upTo_of_lt {size length : Nat} {fault : FileFault} (h : size < length) :
    (upTo size fault).fault? length = some fault :=
  if_neg (Nat.not_le.mpr h)

theorem keep_of_none (h : allowance.fault? (kept.length + bytes.length) = none) :
    allowance.keep kept bytes = (kept ++ bytes, .ok ()) := by
  unfold keep
  rw [h]

/-- **What cannot be kept is the rest** of what was to be added. -/
theorem keep_of_some {fault : FileFault}
    (h : allowance.fault? (kept.length + bytes.length) = some fault) :
    ∃ now rest, allowance.keep kept bytes = (now, .error ⟨rest, fault⟩) ∧
      now ++ rest = kept ++ bytes := by
  unfold keep
  rw [h]
  exact ⟨_, _, rfl, by rw [List.append_assoc, List.take_append_drop]⟩

/-- A file has a beginning of what it was to have. -/
theorem keep_isPrefix (allowance : Allowance) (kept bytes : List UInt8) :
    (allowance.keep kept bytes).1 <+: kept ++ bytes := by
  cases h : allowance.fault? (kept.length + bytes.length) with
  | none => simp [keep_of_none h]
  | some fault =>
    obtain ⟨now, rest, hkeep, hall⟩ := keep_of_some h
    rw [hkeep, ← hall]
    exact List.prefix_append now rest

end Allowance

/-- Whether an entry is a file. -/
def Entry.isFile : Entry → Bool
  | file _ => true
  | _ => false

namespace FileTree

variable {tree tree' : FileTree} {path path' : Path} {place place' : Place}

/-! ## Where a path leads -/

/-- **Every directory of a tree is one of another**, which has the same links, and
paths begin at the same places. -/
structure Keeps (tree tree' : FileTree) : Prop where
  /-- Directories stay. -/
  directory : ∀ place, tree.entry? place = some .directory → tree'.entry? place = some .directory
  /-- Links lead on as they did. -/
  link : ∀ place, tree'.link? place = tree.link? place
  /-- Paths begin where they began. -/
  current : tree'.current = tree.current

theorem Keeps.refl (tree : FileTree) : tree.Keeps tree :=
  ⟨fun _ h => h, fun _ => rfl, rfl⟩

theorem Keeps.trans {tree'' : FileTree} (h : tree.Keeps tree') (h' : tree'.Keeps tree'') :
    tree.Keeps tree'' where
  directory place hplace := h'.directory place (h.directory place hplace)
  link place := (h'.link place).trans (h.link place)
  current := h'.current.trans h.current

theorem link?_of_directory (h : tree.entry? place = some .directory) : tree.link? place = none := by
  unfold link?
  rw [h]

theorem link?_of_none (h : tree.entry? place = none) : tree.link? place = none := by
  unfold link?
  rw [h]

theorem enter_eq_ok {part : String} (h : tree.enter place part = .ok place') :
    tree.entry? place = some .directory ∧
      (part ≠ "." → part ≠ ".." → place' = place ++ [part]) := by
  unfold enter at h
  split at h
  · exact nomatch h
  · next hentry =>
    refine ⟨hentry, fun hdot hdots => ?_⟩
    rw [if_neg hdot, if_neg hdots] at h
    split at h
    · exact nomatch h
    · exact (Except.ok.inj h).symm
  · exact nomatch h

theorem enter_dot (h : tree.entry? place = some .directory) : tree.enter place "." = .ok place := by
  unfold enter
  rw [h]
  rfl

theorem Keeps.enter (h : tree.Keeps tree') {part : String}
    (hok : tree.enter place part = .ok place') : tree'.enter place part = .ok place' := by
  have hentry := (enter_eq_ok hok).1
  rw [← hok]
  unfold FileTree.enter
  rw [hentry, h.directory place hentry]

theorem goOn_cons (part : String) (parts : List String) :
    tree.goOn place (part :: parts) = match tree.enter place part with
      | .error fault => .error fault
      | .ok next =>
        match tree.link? next with
        | some target => .ok (place, some (target, parts))
        | none => tree.goOn next parts :=
  rfl

theorem walk_succ (stretches : Nat) (parts : List String) :
    tree.walk (stretches + 1) place parts = match tree.goOn place parts with
      | .error fault => .error fault
      | .ok (found, none) => .ok (stretches + 1, found)
      | .ok (found, some (target, rest)) =>
        tree.walk stretches (target.start found) (target.steps ++ rest) :=
  rfl

theorem Keeps.goOn (h : tree.Keeps tree') {parts : List String}
    {found : Place × Option (Path × List String)} (hok : tree.goOn place parts = .ok found) :
    tree'.goOn place parts = .ok found := by
  induction parts generalizing place with
  | nil => exact hok
  | cons part parts ih =>
    rw [goOn_cons] at hok ⊢
    rcases hnext : tree.enter place part with fault | next
    · rw [hnext] at hok
      exact nomatch hok
    rw [hnext] at hok
    rw [h.enter hnext]
    dsimp only at hok ⊢
    rw [h.link next]
    cases hlink : tree.link? next with
    | some target =>
      rw [hlink] at hok
      exact hok
    | none =>
      rw [hlink] at hok
      exact ih hok

theorem Keeps.walk (h : tree.Keeps tree') {stretches : Nat} {parts : List String}
    {found : Nat × Place} (hok : tree.walk stretches place parts = .ok found) :
    tree'.walk stretches place parts = .ok found := by
  induction stretches generalizing place parts with
  | zero => exact nomatch hok
  | succ stretches ih =>
    rw [walk_succ] at hok ⊢
    rcases hgo : tree.goOn place parts with fault | ⟨reached, _ | ⟨target, rest⟩⟩
    · rw [hgo] at hok
      exact nomatch hok
    · rw [hgo] at hok
      rw [h.goOn hgo]
      exact hok
    · rw [hgo] at hok
      rw [h.goOn hgo]
      exact ih hok

/-- **A path that leads somewhere still leads there** where directories and links
stay. -/
theorem Keeps.follow (h : tree.Keeps tree') {parts : List String}
    (hok : tree.follow path parts = .ok place) : tree'.follow path parts = .ok place := by
  unfold FileTree.follow at hok ⊢
  split at hok
  · exact nomatch hok
  · rw [h.current]
    rcases hwalk : tree.walk (linkLimit + 1) (path.start tree.current) parts with fault | found
    · rw [hwalk] at hok
      exact nomatch hok
    · rw [hwalk] at hok
      rw [h.walk hwalk]
      exact hok

theorem Keeps.locate (h : tree.Keeps tree') (hok : tree.locate path = .ok place) :
    tree'.locate path = .ok place :=
  h.follow hok

/-- Going on by some parts and then by others: a link among the first has the
others after it as well. -/
theorem goOn_append (parts parts' : List String) :
    tree.goOn place (parts ++ parts') = match tree.goOn place parts with
      | .error fault => .error fault
      | .ok (found, none) => tree.goOn found parts'
      | .ok (found, some (target, rest)) => .ok (found, some (target, rest ++ parts')) := by
  induction parts generalizing place with
  | nil => rfl
  | cons part parts ih =>
    rw [List.cons_append, goOn_cons, goOn_cons]
    cases tree.enter place part with
    | error fault => rfl
    | ok next =>
      dsimp only
      cases tree.link? next with
      | some target => rfl
      | none => exact ih

/-- **Going on by some parts and then by others** is going on by all of them, with
the links that are left. -/
theorem walk_append (stretches : Nat) (parts parts' : List String) :
    tree.walk stretches place (parts ++ parts') = match tree.walk stretches place parts with
      | .error fault => .error fault
      | .ok (left, found) => tree.walk left found parts' := by
  induction stretches generalizing place parts with
  | zero => rfl
  | succ stretches ih =>
    rw [walk_succ, walk_succ, goOn_append]
    rcases tree.goOn place parts with fault | ⟨found, _ | ⟨target, rest⟩⟩
    · rfl
    · rfl
    · dsimp only
      rw [← List.append_assoc]
      exact ih (target.steps ++ rest)

/-- What leads on from a directory to one of its parts, if that is not a link. -/
theorem walk_singleton {stretches left : Nat} {part : String}
    (hok : tree.walk stretches place [part] = .ok (left, place')) :
    ∃ next, tree.enter place part = .ok next ∧ (tree.link? next = none → place' = next) := by
  cases stretches with
  | zero => exact nomatch hok
  | succ stretches =>
    rw [walk_succ, goOn_cons] at hok
    rcases hnext : tree.enter place part with fault | next
    · rw [hnext] at hok
      exact nomatch hok
    · rw [hnext] at hok
      refine ⟨next, rfl, fun hlink => ?_⟩
      dsimp only at hok
      rw [hlink] at hok
      exact (congrArg Prod.snd (Except.ok.inj hok)).symm

theorem walk_singleton_of_enter {stretches : Nat} {part : String}
    (hnext : tree.enter place part = .ok place') (hlink : tree.link? place' = none) :
    tree.walk (stretches + 1) place [part] = .ok (stretches + 1, place') := by
  rw [walk_succ, goOn_cons, hnext]
  dsimp only
  rw [hlink]
  rfl

/-- **The last of some parts** is gone on by from where the others lead, which takes
a stretch that is left. -/
theorem exists_walk_of_concat {stretches left : Nat} {parts : List String} {part : String}
    (hok : tree.walk stretches place (parts ++ [part]) = .ok (left, place')) :
    ∃ rest above, tree.walk stretches place parts = .ok (rest + 1, above) ∧
      tree.walk (rest + 1) above [part] = .ok (left, place') := by
  rw [walk_append] at hok
  rcases habove : tree.walk stretches place parts with fault | ⟨_ | rest, above⟩
  · rw [habove] at hok
    exact nomatch hok
  · rw [habove] at hok
    exact nomatch hok
  · rw [habove] at hok
    exact ⟨rest, above, rfl, hok⟩

theorem follow_eq_ok_iff {parts : List String} :
    tree.follow path parts = .ok place ↔ path.fault? = none ∧
      ∃ left, tree.walk (linkLimit + 1) (path.start tree.current) parts = .ok (left, place) := by
  unfold follow
  cases path.fault? with
  | some fault => exact iff_of_false nofun fun h => nomatch h.1
  | none =>
    dsimp only
    cases tree.walk (linkLimit + 1) (path.start tree.current) parts with
    | error fault => exact iff_of_false nofun fun ⟨_, _, h⟩ => nomatch h
    | ok found =>
      refine ⟨fun h => ⟨rfl, found.1, ?_⟩, fun ⟨_, left, h⟩ => ?_⟩
      · rw [← Except.ok.inj h]
      · rw [Except.ok.inj h]
        rfl

theorem parts_eq_of_getLast? {part : String} (h : path.parts.getLast? = some part) :
    path.parts = path.parts.dropLast ++ [part] := by
  obtain ⟨above, habove⟩ := List.getLast?_eq_some_iff.mp h
  rw [habove, List.dropLast_concat]

/-- **A path leads somewhere through the directory in which its last part is looked
for**, and to that part of it unless this is a link. -/
theorem exists_parent_of_locate {part : String} (hpart : path.parts.getLast? = some part)
    (hok : tree.locate path = .ok place) :
    ∃ above next, tree.locateParent path = .ok above ∧ tree.entry? above = some .directory ∧
      tree.enter above part = .ok next ∧ (tree.link? next = none → place = next) := by
  unfold locate at hok
  obtain ⟨hfault, left, hwalk⟩ := follow_eq_ok_iff.mp hok
  rw [parts_eq_of_getLast? hpart] at hwalk
  obtain ⟨rest, above, habove, hlast⟩ := exists_walk_of_concat hwalk
  obtain ⟨next, hnext, hplace⟩ := walk_singleton hlast
  have hdirectory := (enter_eq_ok hnext).1
  refine ⟨above, next, follow_eq_ok_iff.mpr ⟨hfault, rest + 1, ?_⟩, hdirectory, hnext, hplace⟩
  rw [walk_append, habove]
  exact walk_singleton_of_enter (enter_dot hdirectory) (link?_of_directory hdirectory)

/-- The other way round: what is not a link in the directory of a path is what the
path leads to. -/
theorem locate_of_parent {above : Place} {part : String}
    (hpart : path.parts.getLast? = some part) (hparent : tree.locateParent path = .ok above)
    (hnext : tree.enter above part = .ok place) (hlink : tree.link? place = none) :
    tree.locate path = .ok place := by
  obtain ⟨hfault, left, hwalk⟩ := follow_eq_ok_iff.mp hparent
  obtain ⟨rest, reached, habove, hlast⟩ := exists_walk_of_concat hwalk
  obtain ⟨dot, hdot, hsame⟩ := walk_singleton hlast
  have hdirectory := (enter_eq_ok hdot).1
  obtain rfl : reached = dot := Except.ok.inj ((enter_dot hdirectory).symm.trans hdot)
  obtain rfl := hsame (link?_of_directory hdirectory)
  refine follow_eq_ok_iff.mpr ⟨hfault, rest + 1, ?_⟩
  rw [parts_eq_of_getLast? hpart, walk_append, habove]
  exact walk_singleton_of_enter hnext hlink

theorem locateFile_eq_some_iff :
    tree.locateFile path = .ok (some place) ↔
      tree.locate path = .ok place ∧ ∃ name, path.lastName? = some name := by
  unfold locateFile
  rcases tree.locate path with fault | found
  · exact iff_of_false nofun fun h => nomatch h.1
  rw [show (Except.ok found : Except FileFault Place) = pure found from rfl, pure_bind]
  cases path.lastName? with
  | none => exact iff_of_false nofun fun ⟨_, _, h⟩ => nomatch h
  | some name =>
    refine ⟨fun h => ?_, fun h => ?_⟩
    · obtain rfl : found = place := Option.some.inj (Except.ok.inj h)
      exact ⟨rfl, name, rfl⟩
    · obtain rfl : found = place := Except.ok.inj h.1
      rfl

/-! ## Putting an entry -/

@[simp] theorem entry?_put_self (h : place ≠ []) (entry : Entry) :
    entry? (tree.put place entry) place = some entry := by
  unfold entry? put
  rw [if_neg h]
  exact List.lookup_cons_self

theorem lookup_others (h : place' ≠ place) :
    (tree.others place).lookup place' = tree.entries.lookup place' := by
  unfold others
  induction tree.entries with
  | nil => rfl
  | cons e entries ih =>
    obtain ⟨p, entry⟩ := e
    by_cases hp : p = place
    · subst hp
      rw [List.filter_cons_of_neg (by simp), ih, List.lookup_cons, beq_false_of_ne h]
    · rw [List.filter_cons_of_pos (by simp [hp]), List.lookup_cons, List.lookup_cons, ih]

@[simp] theorem entry?_put_of_ne (h : place' ≠ place) (entry : Entry) :
    entry? (tree.put place entry) place' = tree.entry? place' := by
  unfold entry? put
  dsimp only
  rw [List.lookup_cons, beq_false_of_ne h, lookup_others h]

@[simp] theorem others_put (place : Place) (entry : Entry) :
    (tree.put place entry).others place = tree.others place := by
  unfold others put
  rw [List.filter_cons_of_neg (by simp), others, List.filter_filter]
  simp

/-- What can be kept at a place does not depend on what is there. -/
@[simp] theorem allowed_put (place : Place) (entry : Entry) :
    (tree.put place entry).allowed place = tree.allowed place := by
  unfold allowed
  rw [others_put]
  rfl

@[simp] theorem put_put (place : Place) (entry entry' : Entry) :
    (tree.put place entry).put place entry' = tree.put place entry' := by
  show { tree with entries := (place, entry') :: (tree.put place entry).others place } = _
  rw [others_put]
  rfl

/-- **What is put where there is neither a directory nor a link, and is no link
itself, leaves directories and links alone.** -/
theorem keeps_put (h : tree.entry? place ≠ some .directory) (hlink : tree.link? place = none)
    {entry : Entry} (hentry : ∀ target, entry ≠ .link target) :
    tree.Keeps (tree.put place entry) where
  directory place' h' := by
    rw [entry?_put_of_ne (by rintro rfl; exact h h'), h']
  link place' := by
    by_cases hplace : place' = place
    · subst hplace
      have hne : place' ≠ [] := by
        rintro rfl
        exact h rfl
      rw [hlink]
      cases entry with
      | link target => exact absurd rfl (hentry target)
      | _ => simp [link?, hne]
    · simp [link?, hplace]
  current := rfl

/-! ## Places of files -/

/-- **A path at which a file can be opened**, as far as the way to it and what is
there are concerned. -/
structure FilePlace (tree : FileTree) (path : Path) (place : Place) : Prop where
  /-- There is a directory for it. -/
  parent : ∃ above, tree.locateParent path = .ok above
  /-- The path leads to the place by a name. -/
  located : tree.locateFile path = .ok (some place)
  /-- The path may be that of a file. -/
  not_slashed : path.slashed = false
  /-- There is a file at the place, or nothing. -/
  takes_file : (tree.entry? place).all Entry.isFile = true

namespace FilePlace

theorem cases (h : tree.FilePlace path place) :
    tree.entry? place = none ∨ ∃ bytes, tree.entry? place = some (.file bytes) := by
  have htakes := h.takes_file
  cases hentry : tree.entry? place with
  | none => exact .inl rfl
  | some entry =>
    rw [hentry] at htakes
    cases entry with
    | file bytes => exact .inr ⟨bytes, rfl⟩
    | directory => exact nomatch htakes
    | link target => exact nomatch htakes

theorem not_directory (h : tree.FilePlace path place) : tree.entry? place ≠ some .directory := by
  rcases h.cases with hentry | ⟨bytes, hentry⟩ <;> rw [hentry] <;> exact nofun

theorem not_link (h : tree.FilePlace path place) : tree.link? place = none := by
  unfold link?
  rcases h.cases with hentry | ⟨bytes, hentry⟩ <;> rw [hentry]

theorem ne_nil (h : tree.FilePlace path place) : place ≠ [] := by
  rintro rfl
  exact h.not_directory rfl

theorem locate (h : tree.FilePlace path place) : tree.locate path = .ok place :=
  (locateFile_eq_some_iff.mp h.located).1

theorem keeps (h : tree.FilePlace path place) (bytes : List UInt8) :
    tree.Keeps (tree.put place (.file bytes)) :=
  keeps_put h.not_directory h.not_link nofun

/-- No directory comes about and no link, either. -/
theorem keeps_back (h : tree.FilePlace path place) (bytes : List UInt8) :
    (tree.put place (.file bytes)).Keeps tree where
  directory place' hplace' := by
    by_cases hplace : place' = place
    · subst hplace
      simp [h.ne_nil] at hplace'
    · simpa [hplace] using hplace'
  link place' := ((h.keeps bytes).link place').symm
  current := rfl

/-- Any other file can still be opened, and so can the same. -/
theorem put (h : tree.FilePlace path place) (h' : tree.FilePlace path' place')
    (bytes : List UInt8) : (tree.put place (.file bytes)).FilePlace path' place' where
  parent := h'.parent.imp fun _ => (h.keeps _).follow
  located := by
    obtain ⟨hlocate, hname⟩ := locateFile_eq_some_iff.mp h'.located
    exact locateFile_eq_some_iff.mpr ⟨(h.keeps _).locate hlocate, hname⟩
  not_slashed := h'.not_slashed
  takes_file := by
    by_cases hplace : place' = place
    · simp [hplace, h.ne_nil, Entry.isFile]
    · simpa [hplace] using h'.takes_file

end FilePlace

/-! ## Reading -/

theorem read_of_locate (hlocated : tree.locate path = .ok place) :
    tree.read path = match tree.entry? place with
      | none => .error .notFound
      | some .directory => .error .isDirectory
      | some (.file bytes) => if path.slashed then .error .notDirectory else .ok bytes
      | some (.link _) => .error .tooManyLinks := by
  unfold read
  rw [hlocated]
  rfl

/-- What is read of a path depends on what is at its place. -/
theorem read_eq (hlocated : tree.locate path = .ok place) (hslashed : path.slashed = false) :
    tree.read path = match tree.entry? place with
      | none => .error .notFound
      | some .directory => .error .isDirectory
      | some (.file bytes) => .ok bytes
      | some (.link _) => .error .tooManyLinks := by
  rw [read_of_locate hlocated, hslashed]
  rcases tree.entry? place with _ | entry
  · rfl
  · cases entry <;> rfl

/-- What is read is what was read, where there is the same. -/
theorem Keeps.read_of_entry? (h : tree.Keeps tree') (hlocated : tree.locate path = .ok place)
    (hentry : tree'.entry? place = tree.entry? place) : tree'.read path = tree.read path := by
  rw [read_of_locate (h.locate hlocated), read_of_locate hlocated, hentry]

theorem locate_of_read {bytes : List UInt8} (h : tree.read path = .ok bytes) :
    ∃ place, tree.locate path = .ok place := by
  rcases hlocate : tree.locate path with fault | place
  · unfold read at h
    rw [hlocate] at h
    exact nomatch h
  · exact ⟨place, rfl⟩

namespace FilePlace

/-- **What is put at the place of a file is read there.** -/
theorem read_put (h : tree.FilePlace path place) (bytes : List UInt8) :
    (tree.put place (.file bytes)).read path = .ok bytes := by
  simp [read_eq ((h.keeps _).locate h.locate) h.not_slashed, h.ne_nil]

end FilePlace

/-! ## Writing -/

theorem create_eq {above : Place} (hparent : tree.locateParent path = .ok above)
    (hslashed : path.slashed = false) (hlocated : tree.locateFile path = .ok (some place)) :
    tree.create path = match tree.entry? place with
      | some .directory => .error .isDirectory
      | some (.link _) => .error .tooManyLinks
      | _ => match (tree.allowed place).fault? 0 with
        | some fault => .error fault
        | none => .ok (tree.put place (.file [])) := by
  unfold create
  rw [hparent, hslashed, hlocated]
  rfl

theorem located_of_create (h : tree.create path = .ok tree') :
    ∃ above place, tree.locateParent path = .ok above ∧ path.slashed = false ∧
      tree.locateFile path = .ok (some place) := by
  unfold create at h
  rcases hparent : tree.locateParent path with fault | above
  · rw [hparent] at h
    exact nomatch h
  rw [hparent] at h
  cases hslashed : path.slashed with
  | true =>
    rw [hslashed] at h
    exact nomatch h
  | false =>
    rw [hslashed] at h
    rcases hlocated : tree.locateFile path with fault | _ | place
    · rw [hlocated] at h
      exact nomatch h
    · rw [hlocated] at h
      exact nomatch h
    · exact ⟨above, place, rfl, rfl, rfl⟩

/-- **A file is opened** only at a place for a file. -/
theorem filePlace_of_create (h : tree.create path = .ok tree') :
    ∃ place, tree.FilePlace path place := by
  obtain ⟨above, place, hparent, hslashed, hlocated⟩ := located_of_create h
  rw [create_eq hparent hslashed hlocated] at h
  refine ⟨place, ⟨above, hparent⟩, hlocated, hslashed, ?_⟩
  cases hentry : tree.entry? place with
  | none => rfl
  | some entry =>
    rw [hentry] at h
    cases entry with
    | file bytes => rfl
    | directory => exact nomatch h
    | link target => exact nomatch h

namespace FilePlace

theorem create (h : tree.FilePlace path place) :
    tree.create path = match (tree.allowed place).fault? 0 with
      | some fault => .error fault
      | none => .ok (tree.put place (.file [])) := by
  obtain ⟨above, hparent⟩ := h.parent
  rw [create_eq hparent h.not_slashed h.located]
  rcases h.cases with hentry | ⟨bytes, hentry⟩ <;> rw [hentry]

theorem create_eq_ok (h : tree.FilePlace path place) (hcreate : tree.create path = .ok tree') :
    (tree.allowed place).fault? 0 = none ∧ tree' = tree.put place (.file []) := by
  rw [h.create] at hcreate
  cases hopen : (tree.allowed place).fault? 0 with
  | some fault =>
    rw [hopen] at hcreate
    exact nomatch hcreate
  | none =>
    rw [hopen] at hcreate
    exact ⟨rfl, (Except.ok.inj hcreate).symm⟩

/-- **What is added to a file** is kept as far as it can be. -/
theorem append (h : tree.FilePlace path place) (kept bytes : List UInt8) :
    (tree.put place (.file kept)).append path bytes
      = (tree.put place (.file ((tree.allowed place).keep kept bytes).1),
        ((tree.allowed place).keep kept bytes).2) := by
  simp [FileTree.append, (h.keeps kept).locate h.locate, h.ne_nil]

/-- What is written to a file that can be opened is added to an empty one. -/
theorem write_of_create (h : tree.FilePlace path place)
    (hopen : (tree.allowed place).fault? 0 = none) (bytes : List UInt8) :
    tree.write path bytes =
      (((tree.allowed place).keep [] bytes).2.mapError Unwritten.fault).map fun _ =>
        tree.put place (.file ((tree.allowed place).keep [] bytes).1) := by
  have hcreate := h.create
  rw [hopen] at hcreate
  unfold FileTree.write
  rw [hcreate]
  dsimp only [bind, Except.bind]
  rw [h.append]
  rcases (tree.allowed place).keep [] bytes with ⟨kept, _ | _⟩ <;> rfl

/-- **Bytes can be written there if a file of their number can be kept.** -/
theorem write (h : tree.FilePlace path place) (bytes : List UInt8) :
    tree.write path bytes = match (tree.allowed place).fault? bytes.length with
      | some fault => .error fault
      | none => .ok (tree.put place (.file bytes)) := by
  have hlength : bytes.length = ([] : List UInt8).length + bytes.length := (Nat.zero_add _).symm
  cases hopen : (tree.allowed place).fault? 0 with
  | some fault =>
    have hcreate := h.create
    rw [hopen] at hcreate
    rw [Allowance.fault?_mono hopen (Nat.zero_le _)]
    unfold FileTree.write
    rw [hcreate]
    rfl
  | none =>
    rw [h.write_of_create hopen]
    cases hfault : (tree.allowed place).fault? bytes.length with
    | none =>
      rw [Allowance.keep_of_none (hlength ▸ hfault), List.nil_append]
      rfl
    | some fault =>
      rw [hlength] at hfault
      obtain ⟨now, rest, hkeep, -⟩ := Allowance.keep_of_some hfault
      rw [hkeep]
      rfl

theorem write_eq_ok {bytes : List UInt8} (h : tree.FilePlace path place)
    (hwrite : tree.write path bytes = .ok tree') :
    (tree.allowed place).fault? bytes.length = none ∧ tree' = tree.put place (.file bytes) := by
  rw [h.write] at hwrite
  cases hfault : (tree.allowed place).fault? bytes.length with
  | some fault =>
    rw [hfault] at hwrite
    exact nomatch hwrite
  | none =>
    rw [hfault] at hwrite
    exact ⟨rfl, (Except.ok.inj hwrite).symm⟩

theorem write_eq_error {bytes : List UInt8} {fault : FileFault} (h : tree.FilePlace path place)
    (hwrite : tree.write path bytes = .error fault) :
    (tree.allowed place).fault? bytes.length = some fault := by
  rw [h.write] at hwrite
  cases hfault : (tree.allowed place).fault? bytes.length with
  | some first =>
    rw [hfault] at hwrite
    exact congrArg some (Except.error.inj hwrite)
  | none =>
    rw [hfault] at hwrite
    exact nomatch hwrite

end FilePlace

/-- **Where bytes are written there is a place for a file**, at which they can be
kept. -/
theorem write_cases {bytes : List UInt8} (h : tree.write path bytes = .ok tree') :
    ∃ place, tree.FilePlace path place ∧ (tree.allowed place).fault? bytes.length = none ∧
      tree' = tree.put place (.file bytes) := by
  rcases hopened : tree.create path with fault | opened
  · unfold write at h
    rw [hopened] at h
    exact nomatch h
  obtain ⟨place, hplace⟩ := filePlace_of_create hopened
  exact ⟨place, hplace, hplace.write_eq_ok h⟩

/-- **What is written at a path is read there.** -/
theorem read_of_write {bytes : List UInt8} (h : tree.write path bytes = .ok tree') :
    tree'.read path = .ok bytes := by
  obtain ⟨place, hplace, -, rfl⟩ := write_cases h
  exact hplace.read_put bytes

/-! ## Directories -/

/-- A directory is made where there is nothing. -/
theorem createDirectory_eq (hlocated : tree.locateNew path = .ok (some place)) :
    tree.createDirectory path = match tree.entry? place with
      | some _ => .error .alreadyExists
      | none => match (tree.allowed place).fault? 0 with
        | some fault => .error fault
        | none => .ok (tree.put place .directory) := by
  unfold createDirectory
  rw [hlocated]
  rfl

theorem locateNew_eq_some_iff :
    tree.locateNew path = .ok (some place) ↔ ∃ above name, tree.locateParent path = .ok above ∧
      path.lastName? = some name ∧ tree.enter above name = .ok place := by
  unfold locateNew
  rcases tree.locateParent path with fault | above
  · exact iff_of_false nofun fun ⟨_, _, h, _⟩ => nomatch h
  rw [show (Except.ok above : Except FileFault Place) = pure above from rfl, pure_bind]
  cases path.lastName? with
  | none => exact iff_of_false nofun fun ⟨_, _, _, h, _⟩ => nomatch h
  | some name =>
    dsimp only
    constructor
    · intro h
      rcases hnext : tree.enter above name with fault | next
      · rw [hnext] at h
        exact nomatch h
      · rw [hnext] at h
        obtain rfl : next = place := Option.some.inj (Except.ok.inj h)
        exact ⟨above, name, rfl, rfl, hnext⟩
    · rintro ⟨above', name', habove, hname, hnext⟩
      obtain rfl : above = above' := Except.ok.inj habove
      obtain rfl : name = name' := Option.some.inj hname
      rw [hnext]
      rfl

/-- **A directory that is made** is new at the place to which its path leads. -/
theorem createDirectory_eq_ok (h : tree.createDirectory path = .ok tree') :
    ∃ place, tree.locateNew path = .ok (some place) ∧ tree.entry? place = none ∧
      tree' = tree.put place .directory := by
  rcases hlocated : tree.locateNew path with fault | _ | place
  · unfold createDirectory at h
    rw [hlocated] at h
    exact nomatch h
  · unfold createDirectory at h
    rw [hlocated] at h
    exact nomatch h
  rw [createDirectory_eq hlocated] at h
  refine ⟨place, rfl, ?_⟩
  cases hentry : tree.entry? place with
  | some entry =>
    rw [hentry] at h
    exact nomatch h
  | none =>
    rw [hentry] at h
    refine ⟨rfl, ?_⟩
    cases hfault : (tree.allowed place).fault? 0 with
    | some fault =>
      rw [hfault] at h
      exact nomatch h
    | none =>
      rw [hfault] at h
      exact (Except.ok.inj h).symm

theorem createDirectory_of_isDirectory (h : tree.isDirectory path = true) :
    tree.createDirectory path = .error .alreadyExists := by
  unfold isDirectory at h
  rcases hlocate : tree.locate path with fault | place
  · rw [hlocate] at h
    exact nomatch h
  rw [hlocate] at h
  have hentry : tree.entry? place = some .directory := of_decide_eq_true h
  cases hlast : path.parts.getLast? with
  | none =>
    -- the path leads to where it begins, which is the directory
    have hparts : path.parts = [] := List.getLast?_eq_none_iff.mp hlast
    have hname : path.lastName? = none := by
      unfold Path.lastName?
      rw [hlast]
      rfl
    have hparent : tree.locateParent path = .ok place := by
      unfold locate locateParent at *
      rw [hparts] at hlocate ⊢
      obtain ⟨hfault, left, hwalk⟩ := follow_eq_ok_iff.mp hlocate
      obtain rfl : path.start tree.current = place := congrArg Prod.snd (Except.ok.inj hwalk)
      exact follow_eq_ok_iff.mpr ⟨hfault, _,
        walk_singleton_of_enter (enter_dot hentry) (link?_of_directory hentry)⟩
    unfold createDirectory locateNew
    rw [hparent, hname]
    rfl
  | some part =>
    obtain ⟨above, next, hparent, -, hnext, hplace⟩ := exists_parent_of_locate hlast hlocate
    cases hname : path.lastName? with
    | none =>
      unfold createDirectory locateNew
      rw [hparent, hname]
      rfl
    | some name =>
      obtain rfl : part = name :=
        Option.some.inj (hlast.symm.trans (Path.lastName?_eq_some_iff.mp hname).1)
      rw [createDirectory_eq (locateNew_eq_some_iff.mpr ⟨above, part, hparent, hname, hnext⟩)]
      -- what is there is a link, or the directory itself
      cases hnew : tree.entry? next with
      | some entry => rfl
      | none =>
        rw [hplace (link?_of_none hnew), hnew] at hentry
        exact nomatch hentry

/-- **A directory that is there is not made again.** -/
theorem createDirectories_of_isDirectory (h : tree.isDirectory path = true) :
    tree.createDirectories path = (tree, .ok ()) := by
  have hexists := createDirectory_of_isDirectory h
  unfold createDirectories createParents
  split
  · rfl
  · rw [hexists]
    dsimp only
    unfold settle
    rw [h]
    rfl

end FileTree

end Academy
