import Academy.Proofs.Settings.Assignments
import Academy.Proofs.Toml.Lines
import Mathlib.Data.List.Nodup

/-!
# Assignments as documents

Any assignment of numbers can be written as a TOML document, with a line
for each number. Under the dotted keys of the counts there comes to be one
table, which is made by the first of them and added to by the others, so
the members of the document are those that say the assignment.
-/

namespace Academy

namespace Toml

variable {key other : String} {value : Toml} {members : TomlMembers}

@[simp] theorem map_fst_replace (key : String) (value : Toml) (members : TomlMembers) :
    (replace key value members).map Prod.fst = members.map Prod.fst := by
  induction members with
  | nil => rfl
  | cons member members ih =>
    obtain ⟨k, v⟩ := member
    unfold replace
    split
    · rfl
    · rw [List.map_cons, ih, List.map_cons]

/-- **A member that is replaced** leaves the others as they are. -/
theorem lookup_replace (h : (members.lookup key).isSome) (value : Toml) (other : String) :
    (replace key value members).lookup other
      = if other = key then some value else members.lookup other := by
  induction members with
  | nil => exact nomatch h
  | cons member members ih =>
    obtain ⟨k, v⟩ := member
    rw [lookup_cons_eq_ite] at h ⊢
    unfold replace
    by_cases hk : k = key
    · subst hk
      rw [if_pos rfl, lookup_cons_eq_ite]
      split <;> rfl
    · rw [if_neg (Ne.symm hk)] at h
      rw [if_neg hk, lookup_cons_eq_ite, ih h]
      by_cases hother : other = k
      · subst hother
        rw [if_pos rfl, if_neg hk, if_pos rfl]
      · rw [if_neg hother, if_neg hother]

/-- A member is added at the end if there is none of its name. -/
theorem assign_nil (h : members.lookup key = none) :
    assign key value [] members = some (members ++ [(key, value)]) := by
  unfold assign
  rw [h]
  rfl

theorem lookup_concat (h : members.lookup key = none) (value : Toml) (other : String) :
    (members ++ [(key, value)]).lookup other
      = if other = key then some value else members.lookup other := by
  rw [List.lookup_append, lookup_cons_eq_ite, List.lookup_nil]
  by_cases hother : other = key
  · subst hother
    rw [h, if_pos rfl, Option.none_or]
  · rw [if_neg hother, if_neg hother, Option.or_none]

end Toml

namespace SettingValue

@[simp] theorem map_fst_ofTomlMembers (members : TomlMembers) :
    (ofTomlMembers members).map Prod.fst = members.map Prod.fst := by
  induction members with
  | nil => rfl
  | cons member members ih =>
    obtain ⟨k, v⟩ := member
    rw [ofTomlMembers, List.map_cons, ih, List.map_cons]

@[simp] theorem lookup_ofTomlMembers (members : TomlMembers) (name : String) :
    (ofTomlMembers members).lookup name = (members.lookup name).map ofToml := by
  induction members with
  | nil => rfl
  | cons member members ih =>
    obtain ⟨k, v⟩ := member
    rw [ofTomlMembers, List.lookup_cons, List.lookup_cons, ih]
    cases name == k <;> rfl

end SettingValue

namespace Assignment

open Toml

/-! ## Line by line -/

/-- **What a document has come to** when an assignment has been said by its
lines. -/
structure Built (root : TomlMembers) (a : Assignment) : Prop where
  /-- No member is there twice. -/
  distinct : (root.map Prod.fst).Nodup
  /-- There are no other members. -/
  names : ∀ name ∈ root.map Prod.fst, name = "seed" ∨ name = "counts"
  /-- The seed is a number. -/
  seed : root.lookup "seed" = (a .seed).map fun n => .integer n
  /-- The table of counts has been made by a dotted key, if at all. -/
  counts : ∃ table : TomlMembers,
    (root.lookup "counts" = some (.table .dotted table) ∨
      root.lookup "counts" = none ∧ table = []) ∧
    (table.map Prod.fst).Nodup ∧
    ∀ c : Collection, table.lookup c.name = (a (.count c)).map fun n => .integer n

variable {root : TomlMembers} {a : Assignment}

theorem built_nil : Built [] empty where
  distinct := List.nodup_nil
  names := nofun
  seed := rfl
  counts := ⟨[], .inr ⟨rfl, rfl⟩, List.nodup_nil, fun _ => rfl⟩

theorem Built.inMembers (h : Built root a) : a.InMembers (SettingValue.ofTomlMembers root) := by
  obtain ⟨table, htable, hdistinct, hcounts⟩ := h.counts
  refine ⟨?_, ?_, ?_, SettingValue.ofTomlMembers table, ?_, ?_, fun c => ?_⟩
  · simpa using h.distinct
  · simpa using h.names
  · rw [SettingValue.lookup_ofTomlMembers, h.seed, Option.map_map]
    rfl
  · rw [SettingValue.lookup_ofTomlMembers]
    rcases htable with htable | ⟨htable, rfl⟩
    · rw [htable]
      exact .inl rfl
    · rw [htable]
      exact .inr ⟨rfl, rfl⟩
  · simpa using hdistinct
  · rw [SettingValue.lookup_ofTomlMembers, hcounts, Option.map_map]
    rfl

/-- **A line says one more setting.** -/
theorem Built.addMember (h : Built root a) {s : NumberSetting} (hs : a s = none) (n : Nat) :
    ∃ root', Toml.addMember root (s.keys, n) = some root' ∧ Built root' (a.set s n) := by
  obtain ⟨table, htable, hdistinct, hcounts⟩ := h.counts
  cases s with
  | seed =>
    have hseed : root.lookup "seed" = none := by rw [h.seed, hs, Option.map_none]
    have hadd : Toml.addMember root (NumberSetting.seed.keys, n)
      = some (root ++ [("seed", .integer n)]) := assign_nil hseed
    refine ⟨_, hadd, nodup_concat hseed h.distinct _, ?_, ?_, table, ?_, hdistinct, hcounts⟩
    · rw [List.map_append, List.forall_mem_append]
      exact ⟨h.names, List.forall_mem_singleton.mpr (.inl rfl)⟩
    · rw [lookup_concat hseed]
      rfl
    · rw [lookup_concat hseed, if_neg (by decide)]
      exact htable
  | count c =>
    have hcount : table.lookup c.name = none := by rw [hcounts, hs, Option.map_none]
    have hcounts' : ∀ c' : Collection, (table ++ [(c.name, Toml.integer n)]).lookup c'.name
        = (a.set (.count c) n (.count c')).map fun n => .integer n := by
      intro c'
      rw [lookup_concat hcount, set_count]
      split
      · rfl
      · exact hcounts c'
    have hdistinct' := nodup_concat hcount hdistinct (.integer n)
    rcases htable with htable | ⟨htable, rfl⟩
    · -- the table is there, and a dotted key has made it
      have hadd : Toml.addMember root ((NumberSetting.count c).keys, n) = some
          (replace "counts" (.table .dotted (table ++ [(c.name, .integer n)])) root) := by
        show assign c.name (.integer n) ["counts"] root = _
        rw [assign, htable]
        dsimp only
        rw [assign_nil hcount, Option.map_some]
      have hsome : (root.lookup "counts").isSome := Option.isSome_of_eq_some htable
      refine ⟨_, hadd, ?_, ?_, ?_, _, .inl ?_, hdistinct', hcounts'⟩
      · simpa using h.distinct
      · simpa using h.names
      · rw [lookup_replace hsome, if_neg (by decide), h.seed]
        rfl
      · rw [lookup_replace hsome, if_pos rfl]
    · -- the key makes the table
      have hadd : Toml.addMember root ((NumberSetting.count c).keys, n) = some
          (root ++ [("counts", .table .dotted [(c.name, .integer n)])]) := by
        show assign c.name (.integer n) ["counts"] root = _
        rw [assign, htable]
        dsimp only
        rw [assign_nil List.lookup_nil, Option.map_some]
        rfl
      refine ⟨_, hadd, nodup_concat htable h.distinct _, ?_, ?_, _, .inl ?_, hdistinct', hcounts'⟩
      · rw [List.map_append, List.forall_mem_append]
        exact ⟨h.names, List.forall_mem_singleton.mpr (.inr rfl)⟩
      · rw [lookup_concat htable, if_neg (by decide), h.seed]
        rfl
      · rw [lookup_concat htable, if_pos rfl]
        rfl

/-- **Lines say one setting after the other**, as long as none is said twice. -/
theorem Built.foldlM_addMember (h : Built root a) {entries : List (NumberSetting × Nat)}
    (hnodup : (entries.map Prod.fst).Nodup) (hnew : ∀ entry ∈ entries, a entry.1 = none) :
    ∃ root', (entries.map fun entry => (entry.1.keys, entry.2)).foldlM Toml.addMember root
        = some root' ∧
      Built root' (entries.foldl (fun b entry => b.set entry.1 entry.2) a) := by
  induction entries generalizing root a with
  | nil => exact ⟨root, rfl, h⟩
  | cons entry entries ih =>
    obtain ⟨s, n⟩ := entry
    rw [List.map_cons, List.nodup_cons] at hnodup
    rw [List.forall_mem_cons] at hnew
    obtain ⟨middle, hmiddle, hbuilt⟩ := h.addMember hnew.1 n
    have hrest : ∀ entry ∈ entries, a.set s n entry.1 = none := by
      intro entry hentry
      have hne : entry.1 ≠ s := fun heq =>
        hnodup.1 (List.mem_map.mpr ⟨entry, hentry, heq⟩)
      exact (if_neg hne).trans (hnew.2 entry hentry)
    obtain ⟨root', hroot', hbuilt'⟩ := ih hbuilt hnodup.2 hrest
    refine ⟨root', ?_, hbuilt'⟩
    rw [List.map_cons, List.foldlM_cons, hmiddle]
    exact hroot'

/-! ## Documents -/

/-- **The document of an assignment**, with a line for each number. -/
def asDocument (a : Assignment) : List Char :=
  linesText (a.entries.map fun entry => (entry.1.keys, entry.2))

theorem isPlainMember_of_mem (h : a.Fits) :
    ∀ member ∈ a.entries.map fun entry => (entry.1.keys, entry.2), IsPlainMember member := by
  rw [List.forall_mem_map]
  intro entry hentry
  have hfits := h entry.1 entry.2 (mem_entries.mp hentry)
  have hkeys : ∀ s : NumberSetting, s.keys ≠ [] ∧ s.keys.length ≤ keyLimit ∧
      ∀ key ∈ s.keys, IsPlainKey key := by
    intro s
    cases s with
    | seed => decide
    | count c => cases c <;> decide
  obtain ⟨hne, hlength, hplain⟩ := hkeys entry.1
  exact ⟨hne, hlength, hplain, signed?_eq_some_iff.mpr ⟨by omega, by exact_mod_cast hfits⟩⟩

theorem exists_built_asDocument (h : a.Fits) :
    ∃ root, Toml.ofText? a.asDocument = some root ∧ Built root a := by
  obtain ⟨root, hroot, hbuilt⟩ := built_nil.foldlM_addMember a.nodup_entries fun _ _ => rfl
  rw [foldl_set (List.Perm.refl _), overriding_empty] at hbuilt
  exact ⟨root, (ofText?_linesText (isPlainMember_of_mem h)).trans hroot, hbuilt⟩

/-- A document of characters of one byte has no mark at its beginning. -/
theorem withoutByteOrderMark_utf8Bytes {s : List Char} (h : ∀ c ∈ s, IsAscii c) :
    withoutByteOrderMark (utf8Bytes s) = utf8Bytes s := by
  rw [utf8Bytes_of_ascii h]
  cases s with
  | nil => rfl
  | cons c s =>
    have hc : c.toNat < 128 := h c List.mem_cons_self
    unfold withoutByteOrderMark
    split
    · next heq =>
      have hbyte := congrArg UInt8.toNat (List.cons.inj heq).1
      rw [UInt8.toNat_ofNat'] at hbyte
      change c.toNat % 256 = 239 at hbyte
      omega
    · rfl

/-- **Any assignment is said by a document.** -/
theorem exists_inMembers_asDocument (h : a.Fits) :
    ∃ members, SettingsFormat.toml.ofBytes? (utf8Bytes a.asDocument) = some members ∧
      a.InMembers members := by
  obtain ⟨root, hroot, hbuilt⟩ := exists_built_asDocument h
  have hascii : ∀ c ∈ a.asDocument, IsAscii c := isAscii_linesText (isPlainMember_of_mem h)
  refine ⟨_, ?_, hbuilt.inMembers⟩
  rw [SettingsFormat.ofBytes?, withoutByteOrderMark_utf8Bytes hascii,
    decodeReplacing_utf8Bytes hascii, SettingsFormat.membersOf?, hroot, Option.map_some]

/-- A file of that document says it. -/
theorem fileSays_asDocument (h : a.Fits) {machine : Machine} {path : Path}
    (hfile : machine.files.isFile path = true)
    (hread : machine.files.read path = .ok (utf8Bytes a.asDocument))
    (hformat : SettingsFormat.ofPath? path = some .toml) : machine.FileSays (some path) a := by
  obtain ⟨members, hmembers, hsays⟩ := exists_inMembers_asDocument h
  refine ⟨members, ?_, hsays⟩
  show machine.files.settingsIn path = _
  unfold FileTree.settingsIn settingsFiles
  rw [List.find?_cons_of_pos hfile]
  dsimp only
  rw [hformat, hread]
  dsimp only
  rw [hmembers]

example : String.ofList (asDocument fun
    | .seed => some 3
    | .count .students => some 12
    | _ => none) = "seed = 3\ncounts.students = 12\n" := by decide +kernel

end Assignment

end Academy
