import Academy.Proofs.CommandLine.Verify
import Academy.Proofs.Settings.Environment
import Academy.Proofs.Settings.Load

/-!
# Variables in place of options

The seed and the directory of a dataset can be given by options and by
variables of the environment. Once the settings are loaded, nothing looks
at the environment any more, so a run with a variable does what a run with
an option does, if the option has what the variable is read as.

That is not always what the variable says. A text is taken for a truth
value, a whole number or a binary64 number as soon as it reads as one,
whatever setting it is for. A seed beyond the whole numbers with a sign is
then rounded to 53 binary digits, and a directory whose name is a numeral
is given the name that its value is written with.
-/

namespace Academy

variable {ε α β : Type}

/-! ## Actions that do not look at the environment -/

/-- The machine with another environment. -/
def Machine.within (machine : Machine) (env : Environment) : Machine :=
  { machine with environment := env }

/-- **Two actions are alike** on two machines: they end the same, and what they
leave differs in the environment alone. -/
def AlikeOn (told machine : Machine) (action action' : ExceptT ε (StateM Machine) α) : Prop :=
  action.run.run told
    = ((action'.run.run machine).1, (action'.run.run machine).2.within told.environment)

/-- An action that cannot fail and does not look at the environment. -/
def EnvironmentFree (action : StateM Machine α) : Prop :=
  ∀ (machine : Machine) (env : Environment), action.run (machine.within env)
    = ((action.run machine).1, (action.run machine).2.within env)

/-- **An action that does not look at the environment.** -/
def Blind (action : ExceptT ε (StateM Machine) α) : Prop :=
  ∀ (machine : Machine) (env : Environment), AlikeOn (machine.within env) machine action action

namespace Blind

theorem pure (a : α) : Blind (Pure.pure a : ExceptT ε (StateM Machine) α) :=
  fun _ _ => rfl

theorem throw (e : ε) : Blind (MonadExcept.throw e : ExceptT ε (StateM Machine) α) :=
  fun _ _ => rfl

theorem bind {action : ExceptT ε (StateM Machine) α} {next : α → ExceptT ε (StateM Machine) β}
    (h : Blind action) (hnext : ∀ a, Blind (next a)) : Blind (action >>= next) := by
  intro machine env
  unfold AlikeOn
  rw [ExceptT.run_bind, StateT.run_bind, StateT.run_bind, h machine env]
  generalize action.run.run machine = run
  obtain ⟨ended, middle⟩ := run
  cases ended with
  | error e => rfl
  | ok a => exact hnext a middle env

theorem mapM {f : α → ExceptT ε (StateM Machine) β} (h : ∀ a, Blind (f a)) (as : List α) :
    Blind (as.mapM f) := by
  induction as with
  | nil => exact pure []
  | cons a as ih =>
    rw [List.mapM_cons]
    exact (h a).bind fun b => ih.bind fun bs => pure (b :: bs)

theorem forM {f : α → ExceptT ε (StateM Machine) PUnit} (h : ∀ a, Blind (f a)) (as : List α) :
    Blind (as.forM f) := by
  induction as with
  | nil => exact pure _
  | cons a as ih => exact (h a).bind fun _ => ih

theorem inContext {action : ExceptT Failure (StateM Machine) α} (h : Blind action)
    (context : String) : Blind (Academy.inContext context action) := by
  intro machine env
  unfold AlikeOn Academy.inContext
  rw [ExceptT.run_mk, StateT.run_bind, StateT.run_bind, h machine env]
  generalize action.run.run machine = run
  obtain ⟨ended, middle⟩ := run
  cases ended <;> rfl

theorem lift {action : StateM Machine α} (h : EnvironmentFree action) :
    Blind (ExceptT.lift action : ExceptT ε (StateM Machine) α) := by
  intro machine env
  have hlift : ∀ machine : Machine,
      (ExceptT.lift action : ExceptT ε (StateM Machine) α).run.run machine
        = (.ok (action.run machine).1, (action.run machine).2) := fun _ => rfl
  unfold AlikeOn
  rw [hlift, hlift, h machine env]
  rfl

theorem fileOutcome {attempt : StateM Machine (Except FileFault α)} (path : Path)
    (h : EnvironmentFree attempt) : Blind (Academy.fileOutcome path attempt) := by
  refine (lift h).bind fun outcome => ?_
  cases outcome with
  | ok a => exact pure a
  | error fault => exact throw _

end Blind

theorem environmentFree_changeFiles (change : FileTree → FileTree × α) :
    EnvironmentFree (Machine.changeFiles change) :=
  fun _ _ => rfl

/-- **Writing a chunk** does not look at the environment. -/
theorem Chunk.writeTo_blind (path : Path) (chunk : Chunk) :
    Blind (chunk.writeTo path : ExceptT Failure (StateM Machine) Unit) := by
  have happend : ∀ bytes, Blind (ExceptT.lift (Host.appendFile path bytes) :
      ExceptT Failure (StateM Machine) _) := fun bytes =>
    .lift (environmentFree_changeFiles _)
  refine (happend _).bind fun outcome => ?_
  cases outcome with
  | ok _ => exact .pure _
  | error unwritten =>
    dsimp only
    cases chunk.waited with
    | false => exact .throw _
    | true => exact (happend _).bind fun _ => .throw _

/-- **Writing a dataset** does not look at the environment. -/
theorem Dataset.write_blind (d : Dataset Identifier Instant) (dir : Path) :
    Blind (d.write dir Written.tell : ExceptT Failure (StateM Machine) _) := by
  refine (Blind.fileOutcome dir fun _ _ => rfl).bind fun _ => Blind.mapM (fun c => ?_) _
  refine ((Blind.fileOutcome _ (environmentFree_changeFiles _)).bind fun _ =>
    (Blind.forM (Chunk.writeTo_blind _) _).bind fun _ => Blind.pure _).bind fun count => ?_
  exact (Blind.lift fun _ _ => rfl).bind fun _ => Blind.pure _

/-- **Making a dataset** does not look at the environment. -/
theorem drawValid_blind (counts : Counts) (seed : Option UInt64) :
    Blind (drawValid counts seed : ExceptT Failure (StateM Machine) _) := by
  unfold drawValid
  cases counts.validate with
  | error error => exact Blind.throw _
  | ok =>
    have hwords : Blind (ExceptT.lift (wordsOf seed) : ExceptT Failure (StateM Machine) _) := by
      cases seed <;> exact Blind.lift fun _ _ => rfl
    refine hwords.bind fun words => ?_
    refine (Blind.lift fun _ _ => rfl).bind fun now =>
      (Blind.lift fun _ _ => rfl).bind fun source => ?_
    split
    · exact Blind.throw _
    · exact (Blind.lift fun _ _ => rfl).bind fun _ => Blind.pure _

theorem Settings.generate_blind (settings : Settings) (output : Option Path)
    (seed : Option UInt64) (changes : CountChanges) :
    Blind (settings.generate output seed changes : ExceptT RunFailure (StateM Machine) _) :=
  ((drawValid_blind _ _).inContext _).bind fun dataset =>
    ((Dataset.write_blind dataset _).inContext _).bind fun _ =>
      (Blind.lift fun _ _ => rfl).bind fun _ => Blind.pure _

/-! ## Runs with variables and runs with options -/

open Environment

section

variable {machine : Machine} {config : Option Path} {before after : Environment}
  {settings : Settings} {name text : String}

/-- A run with one more variable is like a run with other options, where these come
to the same action. -/
theorem Invocation.alikeOn_run (hload : machine.Yields (Settings.load config) settings machine)
    {env : Environment} {settings' : Settings}
    (hload' : (machine.within env).Yields (Settings.load config) settings' (machine.within env))
    {command command' : Command} (logLevel : String)
    (hsame : (command'.run settings' : ExceptT RunFailure (StateM Machine) Unit)
      = command.run settings)
    (hblind : Blind (command.run settings : ExceptT RunFailure (StateM Machine) Unit)) :
    AlikeOn (machine.within env) machine (Invocation.run ⟨logLevel, config, command'⟩)
      (Invocation.run ⟨logLevel, config, command⟩) := by
  have hrun : (Invocation.run ⟨logLevel, config, command⟩ :
      ExceptT RunFailure (StateM Machine) _).run.run machine
        = (command.run settings : ExceptT RunFailure (StateM Machine) Unit).run.run machine :=
    (hload.inContext _).run_bind
  have hrun' : (Invocation.run ⟨logLevel, config, command'⟩ :
      ExceptT RunFailure (StateM Machine) _).run.run (machine.within env)
        = (command'.run settings' : ExceptT RunFailure (StateM Machine) Unit).run.run
          (machine.within env) := (hload'.inContext _).run_bind
  unfold AlikeOn
  rw [hrun, hrun', hsame]
  exact hblind machine env

/-- What a file and another environment come to. -/
theorem Settings.yields_load_within (settings' : Settings)
    (henv : machine.environment = before ++ after)
    (hload : machine.Yields (load config) settings machine)
    (hmerged : ∀ members, merged? members (before ++ after) = some settings →
      merged? members (before ++ (name, text) :: after) = some settings')
    (hcounts : settings'.counts = settings.counts) :
    (machine.within (before ++ (name, text) :: after)).Yields (load config) settings'
      (machine.within (before ++ (name, text) :: after)) := by
  obtain ⟨-, members, hmembers, hlayers⟩ := yields_load_iff.mp hload
  rw [henv, ofLayers_eq_ok_iff] at hlayers
  refine yields_load_iff.mpr ⟨rfl, members, hmembers, ?_⟩
  exact ofLayers_of_ok (hmerged members hlayers.1) (hcounts ▸ hlayers.2)

/-- **A variable does what an option does** with what the variable is read as, and
this is what it says only in some cases. Take a machine on which settings are
loaded, and put one more variable into its environment, with no variable
after it for the same setting. Then

* a variable for the seed gives the seed `seedBack n`, which is `n` for the
  lower half of the seeds, for one in 2048 of the upper half and for the
  greatest; making a dataset is alike to making one with that seed as
  option;
* a variable for the directory gives the directory `textBack text`, which is
  the text if that is not taken for a truth value or a number that is
  written differently, and always if there is a slash in it; making a
  dataset is alike to making one with that directory as option. -/
theorem Settings.load_variable (henv : machine.environment = before ++ after)
    (hload : machine.Yields (load config) settings machine)
    (hseed : after.LeavesAlone "seed") (hdir : after.LeavesAlone "output_dir") :
    (∀ n : UInt64,
      let told := machine.within (before ++ ("EDU_SEED__SEED", toString n.toNat) :: after)
      told.Yields (load config) { settings with seed := some (seedBack n) } told ∧
      (∀ logLevel output changes, AlikeOn told machine
        (Invocation.run ⟨logLevel, config, .generate output none changes⟩)
        (Invocation.run ⟨logLevel, config, .generate output (some (seedBack n)) changes⟩)) ∧
      (seedBack n = n ↔ n.toNat < 2 ^ 63 ∨ 2048 ∣ n.toNat ∨ n.toNat = UInt64.size - 1)) ∧
    (∀ text : String,
      let told := machine.within (before ++ ("EDU_SEED__OUTPUT_DIR", text) :: after)
      told.Yields (load config) { settings with outputDir := textBack text } told ∧
      (∀ logLevel seed changes, AlikeOn told machine
        (Invocation.run ⟨logLevel, config, .generate none seed changes⟩)
        (Invocation.run ⟨logLevel, config, .generate (some (textBack text)) seed changes⟩)) ∧
      (textBack text = text ↔ ¬ Respelled text) ∧
      ('/' ∈ text.toList → textBack text = text)) := by
  have hblind (output : Option Path) (seed : Option UInt64) (changes : CountChanges) :
      Blind ((Command.generate output seed changes).run settings :
        ExceptT RunFailure (StateM Machine) Unit) :=
    (settings.generate_blind output seed changes).bind fun _ => Blind.pure ()
  refine ⟨fun n => ?_, fun text => ?_⟩
  · have hmerged := yields_load_within { settings with seed := some (seedBack n) } henv hload
      (fun _ h => merged?_seed h hseed (seedOf?_valueOf n)) rfl
    exact ⟨hmerged, fun logLevel output changes =>
      Invocation.alikeOn_run hload hmerged logLevel rfl (hblind _ _ _), seedBack_eq_iff n⟩
  · have hmerged := yields_load_within { settings with outputDir := textBack text } henv hload
      (fun _ h => merged?_outputDir h hdir (toText?_valueOf text)) rfl
    have hiff : textBack text = text ↔ ¬ Respelled text := not_ne_iff.symm.trans
      (not_congr (textBack_ne_iff text))
    exact ⟨hmerged, fun logLevel seed changes =>
      Invocation.alikeOn_run hload hmerged logLevel rfl (hblind _ _ _), hiff,
      fun hslash => hiff.mpr (not_respelled_of_slash hslash)⟩

/-- A variable for the seed between others, over a file, and one for a directory. -/
theorem Settings.load_variable_small :
    let bytes : List UInt8 := "seed = 3\ncounts.students = 12\n".toList.map fun c => .ofNat c.toNat
    let before : Environment := [("edu_seed__seed", "4"), ("HOME", "/root")]
    let after : Environment := [("EDU_SEED__COUNTS__COURSES", "20")]
    let machine : Machine := .bare { entries := [(["edu.toml"], .file bytes)] } (before ++ after)
    let settings : Settings := { Settings.standard with
      seed := some 4, counts := { Counts.standard with students := 12, courses := 20 } }
    machine.Yields (load "edu") settings machine ∧
      after.LeavesAlone "seed" ∧ after.LeavesAlone "output_dir" ∧
      (machine.within (before ++ ("EDU_SEED__SEED", "42") :: after)).Yields (load "edu")
        { settings with seed := some 42 }
        (machine.within (before ++ ("EDU_SEED__SEED", "42") :: after)) ∧
      textBack "data/007" = "data/007" := by
  intro bytes before after machine settings
  have htells : machine.Tells "edu" settings := by decide +kernel
  have hload : machine.Yields (load "edu") settings machine := htells.yields_load (by decide)
  have hseed : after.LeavesAlone "seed" := by decide +kernel
  have hdir : after.LeavesAlone "output_dir" := by decide +kernel
  obtain ⟨hseeds, hdirs⟩ := Settings.load_variable rfl hload hseed hdir
  exact ⟨hload, hseed, hdir, (hseeds 42).1, (hdirs "data/007").2.2.2 (by decide)⟩

/-- **A variable is not always read as what it says**: of two seeds that are
neighbours one is read for both, and a directory loses the zeros in front of
its name. -/
theorem Settings.load_variable_differs :
    let seeded : Machine := .bare {} [("EDU_SEED__SEED", "9223372036854775809")]
    let directed : Machine := .bare {} [("EDU_SEED__OUTPUT_DIR", "007")]
    seeded.Yields (load none) { Settings.standard with seed := some 9223372036854775808 } seeded ∧
      directed.Yields (load none) { Settings.standard with outputDir := "7" } directed ∧
      (∀ settings after, seeded.Yields (load none) settings after →
        settings.seed ≠ some 9223372036854775809) ∧
      (∀ settings after, directed.Yields (load none) settings after →
        settings.outputDir ≠ "007") := by
  intro seeded directed
  have hseeded : seeded.Tells none { Settings.standard with seed := some 9223372036854775808 } := by
    decide +kernel
  have hdirected : directed.Tells none { Settings.standard with outputDir := "7" } := by
    decide +kernel
  have hseed := hseeded.yields_load (by decide)
  have hdir := hdirected.yields_load (by decide)
  refine ⟨hseed, hdir, fun settings after h => ?_, fun settings after h => ?_⟩
  · obtain ⟨rfl, -⟩ := h.unique hseed
    decide +kernel
  · obtain ⟨rfl, -⟩ := h.unique hdir
    decide

end

end Academy
