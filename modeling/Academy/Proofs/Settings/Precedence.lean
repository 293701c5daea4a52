import Academy.CommandLine.Run
import Academy.Proofs.CommandLine.Acceptance
import Academy.Proofs.Settings.Document

/-!
# Which layer counts

A file lays its table of counts over what is below it, an environment sets
the numbers of records by dotted names, and options change those that are
given. Each of the three could put a whole table in the place of another,
or a number in the place of its neighbour. None does: each of the eight
numbers is that of the highest layer that says it, whatever the others
say.

What is followed through the layers is what the table of all settings says
(`SettingValue.Says`). Setting a name says one more number of it, and so
does, once for all of them, laying the members of a file over the ground.
-/

namespace Academy

namespace SettingValue

/-! ## Members over members -/

/-- **Members that are laid over others** count, and those of other names
stay. -/
theorem lookup_overlayMembers {above : List (String × SettingValue)}
    (h : (above.map Prod.fst).Nodup) (below : List (String × SettingValue)) (name : String) :
    (overlayMembers below above).lookup name
      = match above.lookup name with
        | some value => some (overlay ((below.lookup name).getD nothing) value)
        | none => below.lookup name := by
  induction above generalizing below with
  | nil => rfl
  | cons member above ih =>
    obtain ⟨k, value⟩ := member
    rw [List.map_cons, List.nodup_cons] at h
    rw [overlayMembers, ih h.2, lookup_changeMember, lookup_cons_eq_ite]
    by_cases hname : name = k
    · subst hname
      rw [lookup_eq_none_iff_not_mem.mpr h.1, if_pos rfl, if_pos rfl]
    · rw [if_neg hname, if_neg hname]

/-- Names without a path lead to members, and setting them is laying members
over members. -/
theorem setAll?_table {members : List (String × SettingValue)}
    (h : ∀ name ∈ members.map Prod.fst, stepsOf name = [.member name])
    (below : List (String × SettingValue)) :
    (table below).setAll? members = some (table (overlayMembers below members)) := by
  induction members generalizing below with
  | nil => rfl
  | cons member members ih =>
    obtain ⟨name, value⟩ := member
    rw [List.map_cons, List.forall_mem_cons] at h
    have hset : (table below).set? name value
        = some (table (changeMember name (fun b => overlay b value) below)) := by
      unfold set?
      dsimp only
      rw [h.1]
      rfl
    rw [setAll?_cons, hset, Option.bind_some, ih h.2]
    rfl

/-! ## What a table says -/

/-- **The table of all settings says an assignment.** -/
structure Says (root : SettingValue) (a : Assignment) : Prop where
  /-- Nothing has been said of the directory. -/
  dir : root.members.lookup "output_dir" = some (.text Settings.standardDir)
  /-- The seed is a number. -/
  seed : root.members.lookup "seed" = (a .seed).map fun n => .integer n
  /-- The counts are a table of numbers, if there are any. -/
  counts : ∃ inner : List (String × SettingValue),
    (root.members.lookup "counts" = some (.table inner) ∨
      root.members.lookup "counts" = none ∧ inner = []) ∧
    ∀ c : Collection, inner.lookup c.name = (a (.count c)).map fun n => .integer n

variable {root : SettingValue} {a : Assignment}

/-- **A file says its assignment** over the ground. -/
theorem exists_says_ground {members : List (String × SettingValue)} (h : a.InMembers members) :
    ∃ root, Settings.ground.setAll? members = some root ∧ Says root a := by
  have hplain : ∀ name ∈ members.map Prod.fst, stepsOf name = [.member name] := by
    intro name hname
    rcases h.names name hname with rfl | rfl
    · decide +kernel
    · decide +kernel
  have hdir : members.lookup "output_dir" = none :=
    lookup_eq_none_iff_not_mem.mpr fun hmem => absurd (h.names _ hmem) (by decide)
  have hlookup := fun name => lookup_overlayMembers h.distinct
    [("output_dir", .text Settings.standardDir)] name
  obtain ⟨inner, hinner, hdistinct, hcounts⟩ := h.counts
  refine ⟨_, setAll?_table hplain _, ?_, ?_, overlayMembers [] inner, ?_, fun c => ?_⟩
  · show (overlayMembers _ members).lookup _ = _
    rw [hlookup, hdir]
    rfl
  · show (overlayMembers _ members).lookup _ = _
    rw [hlookup, h.seed]
    cases a .seed <;> rfl
  · show (overlayMembers _ members).lookup _ = _ ∨ (overlayMembers _ members).lookup _ = _ ∧ _
    rw [hlookup]
    rcases hinner with hinner | ⟨hinner, rfl⟩
    · rw [hinner]
      exact .inl rfl
    · rw [hinner]
      exact .inr ⟨rfl, rfl⟩
  · rw [lookup_overlayMembers hdistinct, hcounts]
    cases a (.count c) <;> rfl

/-- **Setting a number by its name** says it, and nothing else changes. -/
theorem Says.set? (h : Says root a) (s : NumberSetting) (n : Nat) :
    ∃ root', root.set? s.name (.integer n) = some root' ∧ Says root' (a.set s n) := by
  have hsteps := s.stepsOf_name
  obtain ⟨root', hroot'⟩ : ∃ root', root.set? s.name (.integer n) = some root' := by
    unfold SettingValue.set?
    dsimp only
    rw [hsteps]
    exact ⟨_, if_pos (by cases s <;> rfl)⟩
  obtain ⟨inner, hinner, hcounts⟩ := h.counts
  refine ⟨root', hroot', ?_⟩
  cases s with
  | seed =>
    have hlookup := lookup_set? hroot' hsteps
    refine ⟨?_, ?_, inner, ?_, hcounts⟩
    · rw [hlookup, if_neg (by decide)]
      exact h.dir
    · rw [hlookup, if_pos rfl]
      rfl
    · rw [hlookup, if_neg (by decide)]
      exact hinner
  | count c =>
    have hlookup := lookup_set? hroot' hsteps
    refine ⟨?_, ?_, changeMember c.name (fun b => overlay b (.integer n)) inner, .inl ?_, ?_⟩
    · rw [hlookup, if_neg (by decide)]
      exact h.dir
    · rw [hlookup, if_neg (by decide)]
      exact h.seed
    · rw [hlookup, if_pos rfl]
      rcases hinner with hinner | ⟨hinner, rfl⟩
      · rw [hinner]
        rfl
      · rw [hinner]
        rfl
    · intro c'
      rw [lookup_changeMember, Assignment.set_count]
      split
      · rfl
      · exact hcounts c'

/-- **Setting numbers one after the other** says each of them. -/
theorem Says.setAll? (h : Says root a) (entries : List (NumberSetting × Nat)) :
    ∃ root', root.setAll? (entries.map fun entry => (entry.1.name, .integer entry.2))
        = some root' ∧
      Says root' (entries.foldl (fun b entry => b.set entry.1 entry.2) a) := by
  induction entries generalizing root a with
  | nil => exact ⟨root, rfl, h⟩
  | cons entry entries ih =>
    obtain ⟨middle, hmiddle, hsays⟩ := h.set? entry.1 entry.2
    obtain ⟨root', hroot', hsays'⟩ := ih hsays
    refine ⟨root', ?_, hsays'⟩
    rw [List.map_cons, setAll?_cons, hmiddle]
    exact hroot'

/-- **What is said is what a run is told.** -/
theorem Says.ofValue? (h : Says root a) : Settings.ofValue? root = some a.settings := by
  obtain ⟨inner, hinner, hcounts⟩ := h.counts
  have hnat : ∀ n : Nat, (SettingValue.integer n).toNat? = some n := fun n => by
    rw [toNat?, if_pos (Int.natCast_nonneg n), Int.toNat_natCast]
  refine Settings.ofValue?_eq_some_iff.mpr ⟨?_, ?_, ?_⟩
  · rw [h.dir]
    rfl
  · show _ = some ((a .seed).map UInt64.ofNat)
    rw [h.seed]
    cases a .seed with
    | none => rfl
    | some n => simp only [Option.map_some, Settings.seedUnder?, Settings.seedOf?, hnat]
  · have hcount : ∀ c, Settings.countIn? inner c = some (a.settings.counts.get c) := by
      intro c
      rw [Settings.countIn?, hcounts, Assignment.get_counts_settings]
      cases a (.count c) with
      | none => rfl
      | some n => exact hnat n
    rcases hinner with hinner | ⟨hinner, rfl⟩
    · rw [hinner]
      show Settings.countsOf? (.table inner) = _
      unfold Settings.countsOf?
      simp only [hcount]
      rfl
    · -- without a table the counts are the standard ones
      rw [hinner]
      refine congrArg some (PerCollection.ext_get fun c => ?_)
      exact Option.some.inj (hcount c)

end SettingValue

/-! ## Layers over layers -/

section

variable {file env : Assignment}

@[simp] theorem Assignment.seed_overriding (env file : Assignment) :
    (env.overriding file).seed = (env.seed <|> file.seed) := by
  show (env .seed <|> file .seed).map UInt64.ofNat
    = ((env .seed).map UInt64.ofNat <|> (file .seed).map UInt64.ofNat)
  cases env .seed <;> rfl

@[simp] theorem Assignment.counts_overriding (env file : Assignment) :
    (env.overriding file).settings.counts = env.changes.apply (file.changes.apply .standard) := by
  refine PerCollection.ext_get fun c => ?_
  rw [get_counts_settings, CountChanges.get_apply, CountChanges.get_apply, changes, changes,
    PerCollection.get_ofFn, PerCollection.get_ofFn]
  show (env (.count c) <|> file (.count c)).getD _ = _
  cases env (.count c) <;> rfl

/-- **What a file and an environment come to** is what they say, the one over
the other. -/
theorem Settings.merged?_of_says {members : List (String × SettingValue)}
    {environment : Environment} (hfile : file.InMembers members)
    (henv : environment.Says env) :
    merged? members environment = some (env.overriding file).settings := by
  obtain ⟨base, hbase, hsays⟩ := SettingValue.exists_says_ground hfile
  obtain ⟨entries, hperm, hsettings⟩ := henv
  obtain ⟨root, hroot, hsays⟩ := hsays.setAll? entries
  rw [Assignment.foldl_set hperm] at hsays
  unfold merged?
  rw [hbase, Option.bind_some, hsettings, hroot, Option.bind_some]
  exact hsays.ofValue?

theorem Machine.tells_of_says {machine : Machine} {config : Option Path}
    (hfile : machine.FileSays config file) (henv : machine.environment.Says env) :
    machine.Tells config (env.overriding file).settings := by
  obtain ⟨members, hmembers, hsays⟩ := hfile
  unfold Tells
  rw [hmembers]
  exact Settings.merged?_of_says hsays henv

end

/-- **Makes a dataset and writes it**, given where it goes, how many records
there are to be and the seed. -/
def generateInto {m : Type → Type} [Monad m] [Host m] (dir : Path) (counts : Counts)
    (seed : Option UInt64) : ExceptT RunFailure m (List Written) := do
  let dataset ← inContext "初始化数据生成器失败" (drawValid counts seed)
  let written ← inContext ("写出数据集失败: " ++ dir) (dataset.write dir Written.tell)
  ExceptT.lift (printLine ("All collections generated in: " ++ dir))
  pure written

/-- **The highest layer that says a number counts**, for each of the eight
numbers on its own. Any assignment of numbers that fit 64 bits with a sign
can be said by a document and by variables. Take a machine whose file says
one assignment and whose environment says another, in these or in other
ways, and lay the second over the first and that over what holds where
nothing is said. If the numbers of records that this comes to cannot be
met, loading the settings fails with the reason. Else the settings that
are loaded are these, with the seed of the environment or else of the file
and with the directory that holds where nothing is said; and making a
dataset with options takes each number from the options if they give it,
and else from these settings. -/
theorem Settings.layers_precedence (file env : Assignment) (hfile : file.Fits)
    (henv : env.Fits) :
    (∃ members, SettingsFormat.toml.ofBytes? (utf8Bytes file.asDocument) = some members ∧
      file.InMembers members) ∧
    env.asVariables.Says env ∧
    ∀ (machine : Machine) (config : Option Path),
      machine.FileSays config file → machine.environment.Says env →
      let told : Settings :=
        { outputDir := standardDir
          seed := env.seed <|> file.seed
          counts := env.changes.apply (file.changes.apply .standard) }
      (∀ error, told.counts.validate = .error error →
        machine.outcome (load config) = .error (.counts error)) ∧
      (told.counts.validate = .ok () →
        machine.Yields (load config) told machine ∧
        ∀ (logLevel : String) (output : Option Path) (seed : Option UInt64)
          (changes : CountChanges),
          let counts := changes.apply told.counts
          (∀ c, counts.get c = (changes.get c <|> env (.count c) <|> file (.count c)).getD
            (Counts.standard.get c)) ∧
          (Invocation.run ⟨logLevel, config, .generate output seed changes⟩ :
              ExceptT RunFailure (StateM Machine) Unit).run.run machine
            = (generateInto (output.getD standardDir) counts (seed <|> told.seed) >>=
                fun _ => pure () : ExceptT RunFailure (StateM Machine) Unit).run.run machine) := by
  refine ⟨Assignment.exists_inMembers_asDocument hfile, Assignment.says_asVariables henv, ?_⟩
  intro machine config hfileSays henvSays told
  have htold : (env.overriding file).settings = told := by
    refine (Settings.mk.injEq _ _ _ _ _ _).mpr ⟨rfl, ?_, ?_⟩
    · simp
    · exact env.counts_overriding file
  have htells : machine.Tells config told := htold ▸ Machine.tells_of_says hfileSays henvSays
  refine ⟨fun error herror => htells.outcome_load herror, fun hvalid => ?_⟩
  have hload := htells.yields_load hvalid
  refine ⟨hload, fun logLevel output seed changes => ⟨fun c => ?_, ?_⟩⟩
  · show (changes.apply told.counts).get c = _
    rw [CountChanges.get_apply, ← htold, Assignment.get_counts_settings]
    show (changes.get c).getD ((env (.count c) <|> file (.count c)).getD _) = _
    cases changes.get c <;> rfl
  · exact (hload.inContext _).run_bind

/-! ## Three layers at once -/

/-- A seed, five instructors and twelve students. -/
def Assignment.fewStudents : Assignment
  | .seed => some 3
  | .count .instructors => some 5
  | .count .students => some 12
  | _ => none

/-- Thirty students and no payments. -/
def Assignment.withoutPayments : Assignment
  | .count .students => some 30
  | .count .payments => some 0
  | _ => none

/-- A machine with the one as a file and the other as environment. -/
def Machine.layered : Machine :=
  .bare { entries := [(["edu.toml"], .file (utf8Bytes Assignment.fewStudents.asDocument))] }
    Assignment.withoutPayments.asVariables

/-- With forty students and another seed by the options, each number is that
of the highest layer that says it. -/
theorem Settings.layers_precedence_layered :
    Assignment.fewStudents.Fits ∧ Assignment.withoutPayments.Fits ∧
    Machine.layered.FileSays (some "edu.toml") Assignment.fewStudents ∧
    Machine.layered.environment.Says Assignment.withoutPayments ∧
    ∃ told : Settings, told.seed = some 3 ∧ told.counts.students = 30 ∧
      Machine.layered.Yields (load (some "edu.toml")) told Machine.layered ∧
      ∃ counts : Counts, counts.students = 40 ∧ counts.instructors = 5 ∧ counts.payments = 0 ∧
        counts.courses = 80 ∧
        (Invocation.run ⟨"info", some "edu.toml", .generate none (some 9)
            { CountChanges.none with students := some 40 }⟩ :
            ExceptT RunFailure (StateM Machine) Unit).run.run Machine.layered
          = (generateInto standardDir counts (some 9) >>=
              fun _ => pure () : ExceptT RunFailure (StateM Machine) Unit).run.run
            Machine.layered := by
  have hfile : Assignment.fewStudents.Fits := by decide
  have henv : Assignment.withoutPayments.Fits := by decide
  have hfileSays : Machine.layered.FileSays (some "edu.toml") Assignment.fewStudents :=
    Assignment.fileSays_asDocument hfile (by decide +kernel) rfl (by decide +kernel)
  have hlayers := layers_precedence Assignment.fewStudents Assignment.withoutPayments hfile henv
  obtain ⟨-, henvSays, hrun⟩ := hlayers
  obtain ⟨hload, hgenerate⟩ :=
    (hrun Machine.layered (some "edu.toml") hfileSays henvSays).2 (by decide)
  refine ⟨hfile, henv, hfileSays, henvSays, _, ?_, ?_, hload, _, ?_, ?_, ?_, ?_,
    (hgenerate "info" none (some 9) { CountChanges.none with students := some 40 }).2⟩
  · decide
  · decide
  · decide
  · decide
  · decide
  · decide

end Academy
