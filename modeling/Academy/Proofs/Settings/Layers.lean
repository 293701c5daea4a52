import Academy.Settings.Basic
import Mathlib.Data.List.Nodup

/-!
# Layers of settings

A name is a path into the table of all settings, and its first step leads
to one member of that table. Setting the name changes this member and
nothing else, and what it becomes depends only on what it was. So the
members can be followed one by one through any number of names that are
set, whatever the paths are after their first step.
-/

namespace Academy

/-! ## Looking up -/

section

variable {κ β : Type} [BEq κ] [LawfulBEq κ]

theorem lookup_cons_eq_ite [DecidableEq κ] (key other : κ) (value : β) (members : List (κ × β)) :
    ((key, value) :: members).lookup other
      = if other = key then some value else members.lookup other := by
  rw [List.lookup_cons]
  by_cases h : other = key
  · rw [if_pos h, beq_iff_eq.mpr h]
  · rw [if_neg h, beq_eq_false_iff_ne.mpr h]

/-- Nothing is found under a key that is not there. -/
theorem lookup_eq_none_iff_not_mem {key : κ} {members : List (κ × β)} :
    members.lookup key = none ↔ key ∉ members.map Prod.fst := by
  rw [List.lookup_eq_none_iff, List.mem_map]
  constructor
  · rintro h ⟨member, hmember, rfl⟩
    exact absurd rfl (bne_iff_ne.mp (h member hmember))
  · exact fun h member hmember => bne_iff_ne.mpr fun heq => h ⟨member, hmember, heq.symm⟩

/-- What is found under a key is the only thing that is there. -/
theorem lookup_eq_of_mem_iff {key : κ} {members : List (κ × β)} {found : Option β}
    (h : ∀ value, (key, value) ∈ members ↔ found = some value) : members.lookup key = found := by
  cases hlookup : members.lookup key with
  | none =>
    refine (Option.eq_none_iff_forall_ne_some.mpr fun value hvalue => ?_).symm
    exact lookup_eq_none_iff_not_mem.mp hlookup (List.mem_map_of_mem ((h value).mpr hvalue))
  | some value =>
    obtain ⟨before, after, rfl, -⟩ := List.lookup_eq_some_iff.mp hlookup
    exact ((h value).mp (List.mem_append_right _ List.mem_cons_self)).symm

omit [BEq κ] [LawfulBEq κ] in
/-- Where there is at most one thing for each key, the keys stay in their order. -/
theorem map_fst_filterMap_sublist {α : Type} (key : α → κ) (f : α → Option β) (as : List α) :
    ((as.filterMap fun a => (f a).map fun b => (key a, b)).map Prod.fst).Sublist (as.map key) := by
  induction as with
  | nil => exact List.Sublist.refl []
  | cons a as ih =>
    cases h : f a with
    | none =>
      rw [List.filterMap_cons_none (by rw [h, Option.map_none])]
      exact ih.cons (key a)
    | some b =>
      rw [List.filterMap_cons_some (b := (key a, b)) (by rw [h, Option.map_some])]
      exact ih.cons_cons (key a)

/-- A key that nothing is found under is a new one. -/
theorem nodup_concat {key : κ} {members : List (κ × β)} (h : members.lookup key = none)
    (hnodup : (members.map Prod.fst).Nodup) (value : β) :
    ((members ++ [(key, value)]).map Prod.fst).Nodup := by
  rw [List.map_append, List.map_singleton, ← List.concat_eq_append]
  exact List.Nodup.concat (lookup_eq_none_iff_not_mem.mp h) hnodup

end

namespace SettingValue

variable {root root' base : SettingValue} {name member other : String} {value : SettingValue}
  {members before after : List (String × SettingValue)}

/-! ## Members -/

/-- **Changing a member** leaves the others as they are. -/
@[simp] theorem lookup_changeMember (name other : String) (f : SettingValue → SettingValue)
    (members : List (String × SettingValue)) :
    (changeMember name f members).lookup other
      = if other = name then some (f ((members.lookup name).getD nothing))
        else members.lookup other := by
  induction members with
  | nil => exact lookup_cons_eq_ite name other _ []
  | cons entry members ih =>
    obtain ⟨n, value⟩ := entry
    rw [changeMember, lookup_cons_eq_ite n name]
    by_cases hn : n = name
    · subst hn
      rw [if_pos rfl, if_pos rfl, lookup_cons_eq_ite, lookup_cons_eq_ite]
      split <;> rfl
    · rw [if_neg hn, if_neg (Ne.symm hn), lookup_cons_eq_ite, lookup_cons_eq_ite, ih]
      by_cases hother : other = name
      · subst hother
        rw [if_neg (Ne.symm hn), if_pos rfl, if_pos rfl]
      · rw [if_neg hother, if_neg hother]

/-! ## Names -/

/-- A name leads through a member of the table at the top. -/
def LeadsThrough (name member : String) : Prop :=
  (stepsOf name).head? = some (.member member)

instance (name member : String) : Decidable (LeadsThrough name member) :=
  inferInstanceAs (Decidable (_ = _))

/-- There is no name that leads nowhere. -/
theorem exists_steps (name : String) : ∃ member steps, stepsOf name = .member member :: steps := by
  unfold stepsOf
  dsimp only
  split
  · exact ⟨_, _, rfl⟩
  · exact ⟨_, _, rfl⟩

/-! ## Setting one name -/

/-- **Setting a name changes one member** of the table at the top, by what it was
alone. -/
theorem lookup_set? {steps : List Step} (h : root.set? name value = some root')
    (hname : stepsOf name = .member member :: steps) (other : String) :
    root'.members.lookup other
      = if other = member then
          some (change (overlay · value) steps ((root.members.lookup member).getD nothing))
        else root.members.lookup other := by
  unfold set? at h
  dsimp only at h
  split at h
  · obtain rfl := Option.some.inj h
    rw [hname]
    exact lookup_changeMember member other _ _
  · exact nomatch h

/-- Whether there is room for what a name leads through is not up to the table. -/
theorem exists_set? (h : root.set? name value = some root') (twin : SettingValue) :
    ∃ twin', twin.set? name value = some twin' := by
  unfold set? at h ⊢
  dsimp only at h ⊢
  split at h
  · next hfits => exact ⟨_, if_pos hfits⟩
  · exact nomatch h

/-- A name that is a member of the table gives it its value, unless that is a
table itself. -/
theorem lookup_set?_self (h : root.set? name value = some root')
    (hname : stepsOf name = [.member member]) (hvalue : ∀ members, value ≠ .table members) :
    root'.members.lookup member = some value := by
  have hoverlay : ∀ below, overlay below value = value := by
    intro below
    cases value with
    | table members => exact absurd rfl (hvalue members)
    | _ => rfl
  rw [lookup_set? h hname, if_pos rfl]
  exact congrArg some (hoverlay _)

/-! ## Setting many names -/

theorem setAll?_cons (root : SettingValue) (name : String) (value : SettingValue)
    (members : List (String × SettingValue)) :
    root.setAll? ((name, value) :: members)
      = (root.set? name value).bind fun root => root.setAll? members := rfl

@[simp] theorem setAll?_append (root : SettingValue) (before after : List (String × SettingValue)) :
    root.setAll? (before ++ after)
      = (root.setAll? before).bind fun root => root.setAll? after :=
  List.foldlM_append

/-- **Two tables that are alike in a member** stay so, and where there is room in
one there is in the other. -/
theorem setAll?_alike (h : root.setAll? members = some root') (twin : SettingValue) :
    ∃ twin', twin.setAll? members = some twin' ∧
      ∀ other, twin.members.lookup other = root.members.lookup other →
        twin'.members.lookup other = root'.members.lookup other := by
  induction members generalizing root twin with
  | nil =>
    obtain rfl : root = root' := Option.some.inj h
    exact ⟨twin, rfl, fun _ halike => halike⟩
  | cons entry members ih =>
    obtain ⟨name, value⟩ := entry
    rw [setAll?_cons] at h
    obtain ⟨middle, hmiddle, h⟩ := Option.bind_eq_some_iff.mp h
    obtain ⟨member, steps, hname⟩ := exists_steps name
    obtain ⟨twinMiddle, htwinMiddle⟩ := exists_set? hmiddle twin
    obtain ⟨twin', htwin', halike'⟩ := ih h twinMiddle
    refine ⟨twin', by rw [setAll?_cons, htwinMiddle]; exact htwin', fun other halike => ?_⟩
    refine halike' other ?_
    rw [lookup_set? hmiddle hname, lookup_set? htwinMiddle hname]
    by_cases hother : other = member
    · subst hother
      rw [if_pos rfl, if_pos rfl, halike]
    · rw [if_neg hother, if_neg hother, halike]

/-- **A member stays** as it is while names are set that do not lead through
it. -/
theorem lookup_setAll?_of_not_leadsThrough (h : root.setAll? members = some root')
    (hnames : ∀ entry ∈ members, ¬ LeadsThrough entry.1 other) :
    root'.members.lookup other = root.members.lookup other := by
  induction members generalizing root with
  | nil =>
    obtain rfl : root = root' := Option.some.inj h
    rfl
  | cons entry members ih =>
    obtain ⟨name, value⟩ := entry
    rw [setAll?_cons] at h
    obtain ⟨middle, hmiddle, h⟩ := Option.bind_eq_some_iff.mp h
    obtain ⟨member, steps, hname⟩ := exists_steps name
    have hother : other ≠ member := by
      rintro rfl
      exact hnames _ List.mem_cons_self (List.head?_eq_some_iff.mpr ⟨steps, hname⟩)
    rw [ih h fun entry hentry => hnames entry (List.mem_cons_of_mem _ hentry),
      lookup_set? hmiddle hname, if_neg hother]

/-- **One more name in between** gives its member its value and changes no other
member, if no name after it leads through the same. -/
theorem exists_setAll?_insert (h : base.setAll? (before ++ after) = some root)
    (hname : stepsOf name = [.member member]) (hvalue : ∀ members, value ≠ .table members)
    (hafter : ∀ entry ∈ after, ¬ LeadsThrough entry.1 member) :
    ∃ root', base.setAll? (before ++ (name, value) :: after) = some root' ∧
      root'.members.lookup member = some value ∧
      ∀ other, other ≠ member → root'.members.lookup other = root.members.lookup other := by
  rw [setAll?_append] at h
  obtain ⟨middle, hmiddle, h⟩ := Option.bind_eq_some_iff.mp h
  obtain ⟨changed, hchanged⟩ : ∃ changed, middle.set? name value = some changed := by
    unfold set?
    dsimp only
    rw [hname]
    exact ⟨_, if_pos rfl⟩
  obtain ⟨root', hroot', halike⟩ := setAll?_alike h changed
  refine ⟨root', ?_, ?_, fun other hother => halike other ?_⟩
  · rw [setAll?_append, hmiddle, Option.bind_some, setAll?_cons, hchanged]
    exact hroot'
  · rw [lookup_setAll?_of_not_leadsThrough hroot' hafter]
    exact lookup_set?_self hchanged hname hvalue
  · rw [lookup_set? hchanged hname, if_neg hother]

end SettingValue

namespace Settings

/-! ## From members to settings -/

/-- **What a file and an environment say** together, over what holds where
nothing is said. Whether it can be met is another matter. -/
def merged? (file : List (String × SettingValue)) (env : Environment) : Option Settings :=
  ((ground.setAll? file).bind (·.setAll? env.settings)).bind ofValue?

section

variable {file : List (String × SettingValue)} {env : Environment} {told : Settings}

theorem ofLayers_of_ok (h : merged? file env = some told)
    (hcounts : told.counts.validate = .ok ()) : ofLayers file env = .ok told := by
  obtain ⟨root, hroot, hvalue⟩ := Option.bind_eq_some_iff.mp h
  unfold ofLayers
  simp only [hroot, hvalue, hcounts]

theorem ofLayers_of_error (h : merged? file env = some told) {error : CountsError}
    (hcounts : told.counts.validate = .error error) :
    ofLayers file env = .error (.counts error) := by
  obtain ⟨root, hroot, hvalue⟩ := Option.bind_eq_some_iff.mp h
  unfold ofLayers
  simp only [hroot, hvalue, hcounts]

/-- **Settings that come of layers** are what these say, and can be met. -/
theorem ofLayers_eq_ok_iff :
    ofLayers file env = .ok told
      ↔ merged? file env = some told ∧ told.counts.validate = .ok () := by
  refine ⟨fun h => ?_, fun h => ofLayers_of_ok h.1 h.2⟩
  cases hmerged : merged? file env with
  | none =>
    unfold merged? at hmerged
    unfold ofLayers at h
    cases hroot : (ground.setAll? file).bind (·.setAll? env.settings) with
    | none =>
      rw [hroot] at h
      exact nomatch h
    | some root =>
      rw [hroot, Option.bind_some] at hmerged
      simp only [hroot, hmerged] at h
      exact nomatch h
  | some said =>
    cases hcounts : said.counts.validate with
    | error error =>
      rw [ofLayers_of_error hmerged hcounts] at h
      exact nomatch h
    | ok =>
      rw [ofLayers_of_ok hmerged hcounts] at h
      obtain rfl : said = told := Except.ok.inj h
      exact ⟨rfl, hcounts⟩

end

/-! ## Setting by setting -/

/-- Where the files go by what is under the name. -/
def dirOf? : Option SettingValue → Option Path
  | some value => value.toText?
  | none => some standardDir

/-- The seed by what is under the name. -/
def seedUnder? : Option SettingValue → Option (Option UInt64)
  | some value => seedOf? value
  | none => some none

/-- The numbers of records by what is under the name. -/
def countsUnder? : Option SettingValue → Option Counts
  | some value => countsOf? value
  | none => some .standard

/-- **Each setting comes of the member under its name**, and of no other. -/
theorem ofValue?_eq_some_iff {root : SettingValue} {settings : Settings} :
    ofValue? root = some settings
      ↔ dirOf? (root.members.lookup "output_dir") = some settings.outputDir ∧
        seedUnder? (root.members.lookup "seed") = some settings.seed ∧
        countsUnder? (root.members.lookup "counts") = some settings.counts := by
  have heq : ofValue? root = (dirOf? (root.members.lookup "output_dir")).bind fun outputDir =>
      (seedUnder? (root.members.lookup "seed")).bind fun seed =>
        (countsUnder? (root.members.lookup "counts")).bind fun counts =>
          some { outputDir, seed, counts } := by
    unfold ofValue? dirOf? seedUnder? countsUnder?
    dsimp only
    cases root.members.lookup "output_dir" <;> cases root.members.lookup "seed" <;>
      cases root.members.lookup "counts" <;> rfl
  rw [heq]
  simp only [Option.bind_eq_some_iff, Option.some_inj]
  constructor
  · rintro ⟨dir, hdir, seed, hseed, counts, hcounts, rfl⟩
    exact ⟨hdir, hseed, hcounts⟩
  · rintro ⟨hdir, hseed, hcounts⟩
    exact ⟨_, hdir, _, hseed, _, hcounts, rfl⟩

end Settings

end Academy
