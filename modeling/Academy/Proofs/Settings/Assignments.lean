import Academy.Proofs.Settings.Environment
import Academy.Proofs.Settings.Load

/-!
# Assignments of numbers

Eight of the settings are numbers: the seed, and how many records there
are to be of each of the seven collections. A layer of settings says some
of them and leaves the others open, and it does so in its own way: a file
has the seed at the top and the numbers of records in a table of its own,
an environment has a variable for each.

What a layer says is an `Assignment`, whatever the way. Laying one
assignment over another goes setting by setting (`Assignment.overriding`), and
that the layers behave in this way, with their tables and their dotted
names, is what there is to prove. Nothing else than the eight is said by
the layers considered here.
-/

namespace Academy

@[simp] theorem PerCollection.get_ofFn {α : Type} (f : Collection → α) (c : Collection) :
    (ofFn f).get c = f c := by
  cases c <;> rfl

theorem PerCollection.ext_get {α : Type} {p q : PerCollection α} (h : ∀ c, p.get c = q.get c) :
    p = q := by
  have hofFn : ∀ p : PerCollection α, p = .ofFn p.get := fun _ => rfl
  rw [hofFn p, hofFn q, funext h]

@[simp] theorem CountChanges.get_apply (changes : CountChanges) (counts : Counts) (c : Collection) :
    (changes.apply counts).get c = (changes.get c).getD (counts.get c) :=
  PerCollection.get_ofFn _ c

/-- **A setting that is a number.** -/
inductive NumberSetting
  /-- The seed of the random words. -/
  | seed
  /-- The number of records of a collection. -/
  | count (c : Collection)
deriving DecidableEq

theorem Collection.name_injective : Function.Injective Collection.name := by
  intro c c'
  cases c <;> cases c' <;> decide

namespace NumberSetting

/-- The settings that are numbers. -/
def all : List NumberSetting :=
  seed :: Collection.all.map count

/-- The names that lead to a setting. -/
def keys : NumberSetting → List String
  | seed => ["seed"]
  | count c => ["counts", c.name]

/-- The name of a setting, with a dot between the names that lead to it. -/
def name : NumberSetting → String
  | seed => "seed"
  | count c => "counts." ++ c.name

/-- The variable of a setting. -/
def variableName : NumberSetting → String
  | seed => "EDU_SEED__SEED"
  | count c => "EDU_SEED__COUNTS__" ++ c.name.toUpper

theorem nodup_all : all.Nodup := by decide

theorem mem_all (s : NumberSetting) : s ∈ all := by
  cases s with
  | seed => exact List.mem_cons_self
  | count c => cases c <;> decide

open SettingValue

/-- **A name leads by its names.** -/
@[simp] theorem stepsOf_name (s : NumberSetting) : stepsOf s.name = s.keys.map Step.member := by
  cases s with
  | seed => decide +kernel
  | count c => cases c <;> decide +kernel

@[simp] theorem settingName?_variableName (s : NumberSetting) :
    Environment.settingName? s.variableName = some s.name := by
  cases s with
  | seed => decide +kernel
  | count c => cases c <;> decide +kernel

end NumberSetting

/-! ## Assignments -/

/-- **What a layer says** about the settings that are numbers. -/
abbrev Assignment := NumberSetting → Option Nat

namespace Assignment

/-- Nothing is said. -/
def empty : Assignment := fun _ => none

/-- One more setting is said, or said anew. -/
def set (a : Assignment) (s : NumberSetting) (n : Nat) : Assignment :=
  fun t => if t = s then some n else a t

/-- **One assignment over another**, setting by setting. -/
def overriding (above below : Assignment) : Assignment :=
  fun s => above s <|> below s

/-- The numbers fit 64 bits with a sign. -/
def Fits (a : Assignment) : Prop :=
  ∀ s n, a s = some n → n < 2 ^ 63

/-- The settings that are said, with their numbers. -/
def entries (a : Assignment) : List (NumberSetting × Nat) :=
  NumberSetting.all.filterMap fun s => (a s).map (s, ·)

/-- The seed that is said. -/
def seed (a : Assignment) : Option UInt64 :=
  (a .seed).map UInt64.ofNat

/-- The numbers of records that are said. -/
def changes (a : Assignment) : CountChanges :=
  .ofFn fun c => a (.count c)

/-- **The settings of an assignment** over what holds where nothing is
said. -/
def settings (a : Assignment) : Settings where
  outputDir := Settings.standardDir
  seed := a.seed
  counts := a.changes.apply .standard

variable {a below : Assignment} {s : NumberSetting} {n : Nat}

/-- Saying the number of a collection says none of another. -/
theorem set_count (a : Assignment) (c : Collection) (n : Nat) (c' : Collection) :
    a.set (.count c) n (.count c') = if c'.name = c.name then some n else a (.count c') := by
  show (if NumberSetting.count c' = .count c then some n else a (.count c')) = _
  by_cases hc : c' = c
  · rw [if_pos (congrArg _ hc), if_pos (congrArg _ hc)]
  · rw [if_neg fun heq => hc (NumberSetting.count.inj heq),
      if_neg fun heq => hc (Collection.name_injective heq)]

@[simp] theorem get_counts_settings (a : Assignment) (c : Collection) :
    a.settings.counts.get c = (a (.count c)).getD (Counts.standard.get c) := by
  refine (CountChanges.get_apply _ _ c).trans ?_
  rw [changes, PerCollection.get_ofFn]

@[simp] theorem mem_entries : (s, n) ∈ a.entries ↔ a s = some n := by
  unfold entries
  rw [List.mem_filterMap]
  constructor
  · rintro ⟨t, -, h⟩
    obtain ⟨m, hm, heq⟩ := Option.map_eq_some_iff.mp h
    obtain ⟨rfl, rfl⟩ := Prod.mk.inj heq
    exact hm
  · intro h
    exact ⟨s, NumberSetting.mem_all s, by rw [h, Option.map_some]⟩

instance (a : Assignment) : Decidable a.Fits :=
  decidable_of_iff (∀ entry ∈ a.entries, entry.2 < 2 ^ 63)
    ⟨fun h s n hs => h (s, n) (mem_entries.mpr hs),
      fun h entry hentry => h entry.1 entry.2 (mem_entries.mp hentry)⟩

/-- No setting is said twice. -/
theorem nodup_entries (a : Assignment) : (a.entries.map Prod.fst).Nodup := by
  have hsublist := map_fst_filterMap_sublist id a NumberSetting.all
  rw [List.map_id] at hsublist
  exact hsublist.nodup NumberSetting.nodup_all

/-- What is said of a setting is found among the entries, in whatever order. -/
theorem lookup_of_perm {entries : List (NumberSetting × Nat)} (h : entries.Perm a.entries)
    (s : NumberSetting) : entries.lookup s = a s :=
  lookup_eq_of_mem_iff fun _ => h.mem_iff.trans mem_entries

/-- Of settings that are said one after the other, none twice, each counts. -/
theorem foldl_set_apply {entries : List (NumberSetting × Nat)}
    (h : (entries.map Prod.fst).Nodup) (s : NumberSetting) :
    entries.foldl (fun b entry => b.set entry.1 entry.2) below s
      = (entries.lookup s <|> below s) := by
  induction entries generalizing below with
  | nil => rfl
  | cons entry entries ih =>
    obtain ⟨t, m⟩ := entry
    rw [List.map_cons, List.nodup_cons] at h
    rw [List.foldl_cons, ih h.2, lookup_cons_eq_ite]
    show (entries.lookup s <|> if s = t then some m else below s) = _
    by_cases heq : s = t
    · subst heq
      rw [if_pos rfl, if_pos rfl, lookup_eq_none_iff_not_mem.mpr h.1]
      rfl
    · rw [if_neg heq, if_neg heq]

/-- **Saying what an assignment says**, one setting after the other, lays it
over what has been said before. -/
theorem foldl_set {entries : List (NumberSetting × Nat)} (h : entries.Perm a.entries) :
    entries.foldl (fun b entry => b.set entry.1 entry.2) below = a.overriding below := by
  funext s
  rw [foldl_set_apply ((h.map Prod.fst).nodup_iff.mpr a.nodup_entries), lookup_of_perm h]
  rfl

@[simp] theorem overriding_empty (a : Assignment) : a.overriding empty = a := by
  funext s
  show (a s <|> none) = a s
  cases a s <;> rfl

/-! ## What a layer is -/

/-- **The members of a file say an assignment**: at the top there is the seed
and the table of counts, or what is said of them, and nothing else. -/
structure InMembers (a : Assignment) (members : List (String × SettingValue)) : Prop where
  /-- No member is there twice. -/
  distinct : (members.map Prod.fst).Nodup
  /-- There are no other members. -/
  names : ∀ name ∈ members.map Prod.fst, name = "seed" ∨ name = "counts"
  /-- The seed is a number. -/
  seed : members.lookup "seed" = (a .seed).map fun n => .integer n
  /-- The table of counts may be missing, and has a number for each collection
  that something is said of. -/
  counts : ∃ table : List (String × SettingValue),
    (members.lookup "counts" = some (.table table) ∨
      members.lookup "counts" = none ∧ table = []) ∧
    (table.map Prod.fst).Nodup ∧
    ∀ c : Collection, table.lookup c.name = (a (.count c)).map fun n => .integer n

end Assignment

/-- **The file that is named says an assignment**, or there is none to be
named and nothing is said. -/
def Machine.FileSays (machine : Machine) (config : Option Path) (a : Assignment) : Prop :=
  ∃ members, machine.files.settingsOf config = .ok members ∧ a.InMembers members

/-- **The environment says an assignment**, by variables in whatever order.
Variables that are for no setting do not matter. -/
def Environment.Says (env : Environment) (a : Assignment) : Prop :=
  ∃ entries : List (NumberSetting × Nat), entries.Perm a.entries ∧
    env.settings = entries.map fun entry => (entry.1.name, .integer entry.2)

namespace Assignment

/-- The variables of an assignment. -/
def asVariables (a : Assignment) : Environment :=
  a.entries.map fun entry => (entry.1.variableName, toString entry.2)

/-- **Any assignment is said by variables.** -/
theorem says_asVariables {a : Assignment} (h : a.Fits) : a.asVariables.Says a := by
  refine ⟨a.entries, List.Perm.refl _, ?_⟩
  have hentries : ∀ entry ∈ a.entries, entry.2 < 2 ^ 63 := fun entry hentry =>
    h entry.1 entry.2 (mem_entries.mp hentry)
  unfold asVariables Environment.settings
  generalize a.entries = entries at hentries
  induction entries with
  | nil => rfl
  | cons entry entries ih =>
    rw [List.forall_mem_cons] at hentries
    rw [List.map_cons, List.map_cons]
    refine (List.filterMap_cons_some (b := (entry.1.name, .integer entry.2)) ?_).trans
      (congrArg _ (ih hentries.2))
    show (Environment.settingName? entry.1.variableName).map _ = _
    rw [NumberSetting.settingName?_variableName, Option.map_some, Environment.valueOf_numeral,
      if_pos hentries.1]

end Assignment

end Academy
