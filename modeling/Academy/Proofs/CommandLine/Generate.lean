import Academy.Proofs.CommandLine.Flags
import Academy.Proofs.Settings.Assignments
import Academy.Proofs.Text.Digits
import Mathlib.Data.List.Perm.Basic

/-!
# What the flags for making a dataset say

A directory, a seed and seven numbers of records can be said on the command
line, each of them or not, in any order, and each with its value as the
next argument or behind an equals sign; the directory and the seed have a
letter besides. The flags say all of it and nothing else: what is read is
what has been written, and where something has not been written nothing is
read.

Everything else that looks like a flag is refused: a flag that there is none
of, one that is given twice under whichever of its names, and a number that
is none or does not fit 64 bits.
-/

namespace Academy

/-- **A numeral of 64 bits**: digits after an optional plus. -/
def IsNumeral (text : String) : Prop :=
  ∃ digits, (text.toList = digits ∨ text.toList = '+' :: digits) ∧ digits ≠ [] ∧
    (∀ c ∈ digits, c.isDigit = true) ∧ digitsValue digits < 2 ^ 64

theorem isSome_natOfText?_iff {text : String} :
    (natOfText? text.toList).isSome = true ↔ IsNumeral text := by
  rw [Option.isSome_iff_exists]
  constructor
  · rintro ⟨n, hn⟩
    obtain ⟨digits, htext, hne, hdigits, rfl, hlt⟩ := natOfText?_eq_some_iff.mp hn
    exact ⟨digits, htext, hne, hdigits, hlt⟩
  · rintro ⟨digits, htext, hne, hdigits, hlt⟩
    exact ⟨_, natOfText?_eq_some_iff.mpr ⟨digits, htext, hne, hdigits, rfl, hlt⟩⟩

/-! ## What flags say -/

/-- The names of the flags for making a dataset. -/
def flagNames : List String :=
  ["output", "seed", "categories", "instructors", "students", "courses", "enrollments", "reviews",
    "payments"]

/-- **What a flag is about**, if there is such a flag: two of them have a letter. -/
def FlagKey.about : FlagKey → Option String
  | name s _ => if s ∈ flagNames then some s else none
  | letter c _ => if c = 'o' then some "output" else if c = 's' then some "seed" else none

/-- The value that is written with a flag. -/
def FlagValue.written : FlagValue → Option String
  | missing => none
  | next text => some text
  | after text => some text

theorem FlagValue.written_of_text? {value : FlagValue} {text : String}
    (h : value.text? = some text) : value.written = some text := by
  cases value with
  | missing => exact nomatch h
  | next text' =>
    have h : (if ArgumentForm.of text' = .plain then some text' else none) = some text := h
    split at h
    · exact h
    · exact nomatch h
  | after text' => exact h

/-- The numbers of records are about neither the directory nor the seed. -/
theorem Collection.name_ne (c : Collection) : c.name ≠ "output" ∧ c.name ≠ "seed" := by
  cases c <;> decide

/-- **What is written with a flag**: what it is about, and a value. -/
def WrittenFlag.says (f : WrittenFlag) : Option (String × String) := do
  let name ← f.key.about
  let text ← f.value.written
  some (name, text)

/-- **What there is to be said** of a directory, a seed and numbers of records, with the
numbers in decimal. -/
def generateEntries (output : Option Path) (seed : Option UInt64) (counts : CountChanges) :
    List (String × String) :=
  output.toList.map (fun path => ("output", path)) ++
    seed.toList.map (fun s => ("seed", toString s.toNat)) ++
      Collection.all.filterMap fun c => (counts.get c).map fun n => (c.name, toString n)

/-! ### The options behind them -/

namespace Invocation

@[simp] theorem generateRule_names : generateRule.options.map (·.name) = flagNames := rfl

/-- What is a fault of a value. -/
theorem fault_of_mem_generateRule {option : OptionRule} (h : option ∈ generateRule.options)
    (text : String) :
    option.fault text = none ↔ if option.name = "output" then text ≠ "" else IsNumeral text := by
  have hnumber (name : String) (letter : Option Char) (hname : name ≠ "output") :
      (OptionRule.number name letter).fault text = none ↔
        if name = "output" then text ≠ "" else IsNumeral text := by
    rw [if_neg hname, ← isSome_natOfText?_iff]
    show (if (natOfText? text.toList).isSome then none else some UsageError.invalidValue) = none ↔ _
    split
    · next hsome => exact iff_of_true rfl hsome
    · next hnone => exact iff_of_false nofun hnone
  rcases List.mem_cons.mp h with rfl | h
  · show (if text.isEmpty then some UsageError.missingValue else none) = none ↔ text ≠ ""
    rw [ne_eq, ← String.isEmpty_iff]
    split
    · next hempty => exact iff_of_false nofun (not_not.mpr hempty)
    · next hempty => exact iff_of_true rfl hempty
  rcases List.mem_cons.mp h with rfl | h
  · exact hnumber "seed" _ (by decide)
  · obtain ⟨c, -, rfl⟩ := List.mem_map.mp h
    exact hnumber c.name _ c.name_ne.1

/-- **The option that a flag is for** is the one of what it is about. -/
theorem option?_generateRule (key : FlagKey) :
    (∃ option ∈ generateRule.options, generateRule.option? key = some option ∧
      key.about = some option.name) ∨
    (generateRule.option? key = none ∧ key.about = none) := by
  cases key with
  | name s hs =>
    by_cases hmem : s ∈ flagNames
    · rw [← generateRule_names] at hmem
      obtain ⟨option, hoption, hname⟩ := List.mem_map.mp hmem
      cases hfind : generateRule.options.find? (·.name = s) with
      | none => exact absurd (decide_eq_true hname) (List.find?_eq_none.mp hfind option hoption)
      | some found =>
        have hfound : found.name = s := by simpa using List.find?_some hfind
        refine .inl ⟨found, List.mem_of_find?_eq_some hfind, hfind, ?_⟩
        rw [hfound]
        exact if_pos (generateRule_names ▸ hmem)
    · refine .inr ⟨List.find?_eq_none.mpr fun option hoption hname => hmem ?_, if_neg hmem⟩
      rw [← generateRule_names, ← of_decide_eq_true hname]
      exact List.mem_map_of_mem hoption
  | letter c hc =>
    by_cases ho : c = 'o'
    · subst ho
      exact .inl ⟨_, List.mem_cons_self, rfl, rfl⟩
    by_cases hs : c = 's'
    · subst hs
      exact .inl ⟨_, List.mem_cons_of_mem _ List.mem_cons_self, rfl, rfl⟩
    · refine .inr ⟨List.find?_eq_none.mpr fun option hoption hletter => ?_, ?_⟩
      · have hletters : ∀ l ∈ generateRule.options.map (·.letter), l = some 'o' ∨ l = some 's' ∨
            l = none := by decide
        have hfound : option.letter = some c := of_decide_eq_true hletter
        have hcases := hletters _ (List.mem_map_of_mem hoption)
        rw [hfound, Option.some_inj, Option.some_inj] at hcases
        rcases hcases with h | h | h
        · exact ho h
        · exact hs h
        · exact nomatch h
      · show (if c = 'o' then _ else if c = 's' then _ else none) = none
        rw [if_neg ho, if_neg hs]

/-- **What a flag says by itself**, where its value can be one. -/
theorem entry?_generateRule {f : WrittenFlag} {name text : String} :
    generateRule.entry? f = some (name, text) ↔ f.key.about = some name ∧
      f.value.text? = some text ∧ if name = "output" then text ≠ "" else IsNumeral text := by
  unfold CommandRule.entry?
  rcases option?_generateRule f.key with ⟨option, hmem, hoption, habout⟩ | ⟨hoption, habout⟩
  · rw [hoption, habout]
    cases htext : f.value.text? with
    | none => exact iff_of_false nofun nofun
    | some text' =>
      show (if option.fault text' = none then some (option.name, text') else none) = _ ↔ _
      constructor
      · intro h
        split at h
        · next hfault =>
          obtain ⟨rfl, rfl⟩ := Prod.mk.inj (Option.some.inj h)
          exact ⟨rfl, rfl, (fault_of_mem_generateRule hmem _).mp hfault⟩
        · exact nomatch h
      · rintro ⟨hname, htext, hvalid⟩
        obtain rfl := Option.some.inj hname
        obtain rfl := Option.some.inj htext
        exact if_pos ((fault_of_mem_generateRule hmem _).mpr hvalid)
  · rw [hoption, habout]
    exact iff_of_false nofun nofun

/-! ## What is read -/

/-- The arguments of the command alone decide what is asked for. -/
theorem ofArguments_generate (arguments : List String) :
    ofArguments ("generate" :: arguments)
      = (generateRule.outcome arguments {}).map fun given =>
        ⟨"info", none, .generate (given.lookup "output") ((number? given "seed").map .ofNat)
          (.ofFn fun c => number? given c.name)⟩ := by
  have hprogram : program.read ("generate" :: arguments) {}
      = .ok ({}, some ("generate", arguments)) := rfl
  have hcommand : readCommand "generate" arguments = (generateRule.outcome arguments {}).map
      fun given => .generate (given.lookup "output") ((number? given "seed").map .ofNat)
        (.ofFn fun c => number? given c.name) := by
    unfold readCommand
    rw [if_pos rfl]
    show (generateRule.outcome arguments {} >>= _) = _
    cases generateRule.outcome arguments {} <;> rfl
  unfold ofArguments
  rw [hprogram]
  show (readCommand "generate" arguments >>= _) = _
  rw [hcommand]
  cases generateRule.outcome arguments {} <;> rfl

section

variable {output : Option Path} {seed : Option UInt64} {counts : CountChanges}

/-- Nothing is said twice. -/
theorem nodup_generateEntries :
    ((generateEntries output seed counts).map Prod.fst).Nodup := by
  have houtput : ((output.toList.map fun path => ("output", path)).map Prod.fst).Sublist
      ["output"] := by
    cases output with
    | none => exact List.nil_sublist _
    | some path => exact List.Sublist.refl _
  have hseed : ((seed.toList.map fun s => ("seed", toString s.toNat)).map Prod.fst).Sublist
      ["seed"] := by
    cases seed with
    | none => exact List.nil_sublist _
    | some s => exact List.Sublist.refl _
  have hcounts := map_fst_filterMap_sublist Collection.name
    (fun c => (counts.get c).map fun n => toString n) Collection.all
  simp only [Option.map_map] at hcounts
  have hsublist : ((generateEntries output seed counts).map Prod.fst).Sublist flagNames := by
    unfold generateEntries
    rw [List.map_append, List.map_append]
    exact (houtput.append hseed).append hcounts
  exact hsublist.nodup (by decide)

theorem mem_generateEntries {name text : String} :
    (name, text) ∈ generateEntries output seed counts ↔
      (name = "output" ∧ output = some text) ∨
      (name = "seed" ∧ ∃ s, seed = some s ∧ text = toString s.toNat) ∨
      ∃ c n, name = c.name ∧ counts.get c = some n ∧ text = toString n := by
  unfold generateEntries
  simp only [List.mem_append, List.mem_map, List.mem_filterMap, Option.mem_toList,
    Option.map_eq_some_iff, Prod.mk.injEq, or_assoc]
  refine or_congr ?_ (or_congr ?_ ?_)
  · constructor
    · rintro ⟨path, hpath, rfl, rfl⟩
      exact ⟨rfl, hpath⟩
    · rintro ⟨rfl, hpath⟩
      exact ⟨text, hpath, rfl, rfl⟩
  · constructor
    · rintro ⟨s, hs, rfl, rfl⟩
      exact ⟨rfl, s, hs, rfl⟩
    · rintro ⟨rfl, s, hs, rfl⟩
      exact ⟨s, hs, rfl, rfl⟩
  · constructor
    · rintro ⟨c, -, n, hn, rfl, rfl⟩
      exact ⟨c, n, rfl, hn, rfl⟩
    · rintro ⟨c, n, rfl, hn, rfl⟩
      exact ⟨c, by cases c <;> decide, n, hn, rfl, rfl⟩

/-! What is found among the entries, in whatever order. -/

section

variable {given : List (String × String)}
  (hgiven : given.Perm (generateEntries output seed counts))
include hgiven

theorem lookup_output : given.lookup "output" = output := by
  refine lookup_eq_of_mem_iff fun text =>
    (hgiven.mem_iff.trans mem_generateEntries).trans ⟨?_, fun h => .inl ⟨rfl, h⟩⟩
  rintro (⟨-, h⟩ | ⟨h, -⟩ | ⟨c, -, h, -⟩)
  · exact h
  · exact absurd h (by decide)
  · exact absurd h.symm c.name_ne.1

theorem lookup_seed : given.lookup "seed" = seed.map fun s => toString s.toNat := by
  refine lookup_eq_of_mem_iff fun text => (hgiven.mem_iff.trans mem_generateEntries).trans ?_
  rw [Option.map_eq_some_iff]
  constructor
  · rintro (⟨h, -⟩ | ⟨-, s, hs, rfl⟩ | ⟨c, -, h, -⟩)
    · exact absurd h (by decide)
    · exact ⟨s, hs, rfl⟩
    · exact absurd h.symm c.name_ne.2
  · rintro ⟨s, hs, rfl⟩
    exact .inr (.inl ⟨rfl, s, hs, rfl⟩)

theorem lookup_count (c : Collection) : given.lookup c.name = (counts.get c).map toString := by
  refine lookup_eq_of_mem_iff fun text => (hgiven.mem_iff.trans mem_generateEntries).trans ?_
  rw [Option.map_eq_some_iff]
  constructor
  · rintro (⟨h, -⟩ | ⟨h, -⟩ | ⟨c', n, h, hn, rfl⟩)
    · exact absurd h c.name_ne.1
    · exact absurd h c.name_ne.2
    · exact ⟨n, Collection.name_injective h ▸ hn, rfl⟩
  · rintro ⟨n, hn, rfl⟩
    exact .inr (.inr ⟨c, n, rfl, hn, rfl⟩)

/-- **The entries say the command**, with numbers that are read as they were. -/
theorem command_of_perm (hcounts : ∀ c n, counts.get c = some n → n < 2 ^ 64) :
    Command.generate (given.lookup "output") ((number? given "seed").map .ofNat)
      (.ofFn fun c => number? given c.name) = .generate output seed counts := by
  have hseed : (number? given "seed").map .ofNat = seed := by
    unfold number?
    rw [lookup_seed hgiven]
    cases seed with
    | none => rfl
    | some s =>
      rw [Option.map_some, Option.bind_some, natOfText?_toString s.toNat_lt, Option.map_some,
        UInt64.ofNat_toNat]
  have hcount (c : Collection) : number? given c.name = counts.get c := by
    unfold number?
    rw [lookup_count hgiven]
    cases hn : counts.get c with
    | none => rfl
    | some n => rw [Option.map_some, Option.bind_some, natOfText?_toString (hcounts c n hn)]
  have hnumbers : (PerCollection.ofFn fun c => number? given c.name) = counts := by
    rw [funext hcount]
    rfl
  rw [lookup_output hgiven, hseed, hnumbers]

end

/-- What is to be said can be said. -/
theorem valid_of_mem_generateEntries
    (houtput : ∀ path, output = some path → path ≠ "" ∧ path.toList.head? ≠ some '-')
    (hcounts : ∀ c n, counts.get c = some n → n < 2 ^ 64) {name text : String}
    (h : (name, text) ∈ generateEntries output seed counts) :
    ArgumentForm.of text = .plain ∧ if name = "output" then text ≠ "" else IsNumeral text := by
  have hplain : text.toList.head? ≠ some '-' → ArgumentForm.of text = .plain := by
    intro hfirst
    unfold ArgumentForm.of
    split
    · next heq => exact absurd (congrArg List.head? heq) hfirst
    · next heq => exact absurd (congrArg List.head? heq) hfirst
    · next heq => exact absurd (congrArg List.head? heq) hfirst
    · rfl
  have hnumeral {n : Nat} (hn : n < 2 ^ 64) (hname : name ≠ "output") (htext : text = toString n) :
      ArgumentForm.of text = .plain ∧ if name = "output" then text ≠ "" else IsNumeral text := by
    rw [if_neg hname]
    refine ⟨hplain fun hfirst => ?_, ?_⟩
    · rw [htext, show (toString n).toList = Nat.toDigits 10 n from Nat.toList_repr] at hfirst
      exact nomatch isDigit_of_mem_toDigits (List.mem_of_head? hfirst)
    · rw [← isSome_natOfText?_iff, htext, natOfText?_toString hn]
      rfl
  rcases mem_generateEntries.mp h with ⟨rfl, hpath⟩ | ⟨rfl, s, -, htext⟩ | ⟨c, n, rfl, hn, htext⟩
  · obtain ⟨hne, hfirst⟩ := houtput text hpath
    exact ⟨hplain hfirst, hne⟩
  · exact hnumeral s.toNat_lt (by decide) htext
  · exact hnumeral (hcounts c n hn) c.name_ne.1 htext

end

/-- A flag that says what can be said is accepted by itself. -/
theorem entry?_of_written {f : WrittenFlag} {name text : String} (h : f.says = some (name, text))
    (hplain : ArgumentForm.of text = .plain)
    (hvalid : if name = "output" then text ≠ "" else IsNumeral text) :
    generateRule.entry? f = some (name, text) := by
  obtain ⟨name', habout, h⟩ := Option.bind_eq_some_iff.mp h
  obtain ⟨text', htext, h⟩ := Option.bind_eq_some_iff.mp h
  obtain ⟨rfl, rfl⟩ := Prod.mk.inj (Option.some.inj h)
  refine entry?_generateRule.mpr ⟨habout, ?_, hvalid⟩
  obtain ⟨key, value⟩ := f
  cases value with
  | missing => exact nomatch htext
  | next text =>
    obtain rfl := Option.some.inj htext
    exact if_pos hplain
  | after text => exact htext

section

variable {flags : List WrittenFlag} {output : Option Path} {seed : Option UInt64}
  {counts : CountChanges} {entries : List (String × String)}

/-- **Flags that say what can be said are accepted by themselves**, in any order. -/
theorem exists_entries_of_said
    (houtput : ∀ path, output = some path → path ≠ "" ∧ path.toList.head? ≠ some '-')
    (hcounts : ∀ c n, counts.get c = some n → n < 2 ^ 64)
    (hsaid : (flags.map WrittenFlag.says).Perm ((generateEntries output seed counts).map some)) :
    ∃ entries : List (String × String), flags.map generateRule.entry? = entries.map some ∧
      entries.Perm (generateEntries output seed counts) := by
  obtain ⟨entries, hentries, hperm⟩ := (congrFun₂ (List.eq_map_comp_perm some) _ _).mpr hsaid
  refine ⟨entries, ?_, hperm⟩
  refine Eq.trans (List.map_congr_left fun f hf => ?_) hentries
  have hmem : f.says ∈ entries.map some := hentries ▸ List.mem_map_of_mem hf
  obtain ⟨⟨name, text⟩, hentry, hf⟩ := List.mem_map.mp hmem
  obtain ⟨hplain, hvalid⟩ := valid_of_mem_generateEntries houtput hcounts (hperm.mem_iff.mp hentry)
  rw [entry?_of_written hf.symm hplain hvalid, hf]

/-- Where all flags are accepted each of them is. -/
theorem exists_entry?_of_mem (haccepted : flags.map generateRule.entry? = entries.map some)
    {f : WrittenFlag} (hf : f ∈ flags) :
    ∃ name text, generateRule.entry? f = some (name, text) := by
  have hmem : generateRule.entry? f ∈ entries.map some := haccepted ▸ List.mem_map_of_mem hf
  obtain ⟨⟨name, text⟩, -, hentry⟩ := List.mem_map.mp hmem
  exact ⟨name, text, hentry.symm⟩

/-- Flags that are accepted are about what their entries are. -/
theorem map_about_of_accepted (haccepted : flags.map generateRule.entry? = entries.map some) :
    (flags.map fun f => f.key.about) = (entries.map Prod.fst).map some := by
  have hnames := congrArg (List.map (Option.map Prod.fst)) haccepted
  rw [List.map_map, List.map_map] at hnames
  rw [List.map_map]
  refine (List.map_congr_left fun f hf => ?_).trans hnames
  obtain ⟨name, text, hentry⟩ := exists_entry?_of_mem haccepted hf
  show _ = (generateRule.entry? f).map Prod.fst
  rw [hentry, (entry?_generateRule.mp hentry).1]
  rfl

end

/-- **What has been written is read, and nothing else is accepted.** Take any
directory that is not empty and does not begin with a hyphen, any seed and any
numbers of 64 bits, each of them or none, and write a flag for each that there
is, in any order, each by its name or by its letter, with the value as the next
argument or behind an equals sign: these are asked for, and nothing besides.
And of any flags, with whatever values or without, the arguments are refused
where two flags are about the same, where there is no such flag, and where what
should be a number is not a numeral of 64 bits. -/
theorem ofArguments_flags (flags : List WrittenFlag) :
    (∀ (output : Option Path) (seed : Option UInt64) (counts : CountChanges),
      (∀ path, output = some path → path ≠ "" ∧ path.toList.head? ≠ some '-') →
      (∀ c n, counts.get c = some n → n < 2 ^ 64) →
      (flags.map WrittenFlag.says).Perm ((generateEntries output seed counts).map some) →
      ofArguments ("generate" :: flags.flatMap WrittenFlag.arguments)
        = .ok ⟨"info", none, .generate output seed counts⟩) ∧
    ((¬(flags.map fun f => f.key.about).Nodup ∨ (∃ f ∈ flags, f.key.about = none) ∨
        ∃ f ∈ flags, f.key.about ≠ some "output" ∧
          ∀ text, f.value.written = some text → ¬IsNumeral text) →
      ∃ e, ofArguments ("generate" :: flags.flatMap WrittenFlag.arguments) = .error e) := by
  have hiff (final : List (String × String)) :=
    generateRule.outcome_eq_ok_iff rfl flags {} [] List.nodup_nil rfl final
  rw [ofArguments_generate]
  constructor
  · intro output seed counts houtput hcounts hsaid
    obtain ⟨entries, haccepted, hperm⟩ := exists_entries_of_said houtput hcounts hsaid
    have hnodup : (entries.map Prod.fst).Nodup :=
      (hperm.map Prod.fst).nodup_iff.mpr nodup_generateEntries
    rw [(hiff entries).mpr ⟨entries, haccepted, rfl, hnodup⟩]
    exact congrArg (fun command => (Except.ok ⟨"info", none, command⟩ : Except _ Invocation))
      (command_of_perm hperm hcounts)
  · intro hfault
    cases hended : generateRule.outcome (flags.flatMap WrittenFlag.arguments) {} with
    | error e => exact ⟨e, rfl⟩
    | ok final =>
      exfalso
      obtain ⟨entries, haccepted, hfinal, hnodup⟩ := (hiff final).mp hended
      obtain rfl : entries = final := hfinal.symm
      rcases hfault with htwice | ⟨f, hf, hnone⟩ | ⟨f, hf, hname, hnumeral⟩
      · rw [map_about_of_accepted haccepted] at htwice
        exact htwice (hnodup.map (Option.some_injective _))
      · obtain ⟨name, text, hentry⟩ := exists_entry?_of_mem haccepted hf
        exact nomatch hnone.symm.trans (entry?_generateRule.mp hentry).1
      · obtain ⟨name, text, hentry⟩ := exists_entry?_of_mem haccepted hf
        obtain ⟨habout, htext, hvalid⟩ := entry?_generateRule.mp hentry
        rw [if_neg fun h => hname (habout.trans (congrArg some h))] at hvalid
        exact hnumeral text (FlagValue.written_of_text? htext) hvalid

/-- Four flags in three spellings with the greatest seed there is, and three that are
refused: a seed that is greater, one that is given twice, and a flag that there is
none of. -/
theorem ofArguments_flags_mixed :
    ofArguments ["generate", "--payments=0", "-s", "18446744073709551615", "-o=/tmp/out",
        "--students", "50"]
      = .ok ⟨"info", none, .generate (some "/tmp/out") (some 18446744073709551615)
        ⟨none, none, some 50, none, none, none, some 0⟩⟩ ∧
    (∃ e, ofArguments ["generate", "--seed", "18446744073709551616"] = .error e) ∧
    (∃ e, ofArguments ["generate", "-s", "1", "--seed=1"] = .error e) ∧
    ∃ e, ofArguments ["generate", "--frobnicate"] = .error e := by
  refine ⟨?_, ?_, ?_, ?_⟩
  · refine (ofArguments_flags [⟨.name "payments" (by decide), .after "0"⟩,
      ⟨.letter 's' (by decide), .next "18446744073709551615"⟩,
      ⟨.letter 'o' (by decide), .after "/tmp/out"⟩,
      ⟨.name "students" (by decide), .next "50"⟩]).1 (some "/tmp/out")
        (some 18446744073709551615) ⟨none, none, some 50, none, none, none, some 0⟩ ?_ ?_ ?_
    · rintro path ⟨⟩
      decide
    · intro c n hn
      cases c <;> cases hn <;> decide
    · decide +kernel
  · refine (ofArguments_flags [⟨.name "seed" (by decide), .next "18446744073709551616"⟩]).2
      (.inr (.inr ⟨_, List.mem_cons_self, by decide, ?_⟩))
    rintro _ ⟨⟩
    rw [← isSome_natOfText?_iff]
    decide +kernel
  · exact (ofArguments_flags [⟨.letter 's' (by decide), .next "1"⟩,
      ⟨.name "seed" (by decide), .after "1"⟩]).2 (.inl (by decide))
  · exact (ofArguments_flags [⟨.name "frobnicate" (by decide), .missing⟩]).2
      (.inr (.inl ⟨_, List.mem_cons_self, by decide⟩))

end Invocation

end Academy
