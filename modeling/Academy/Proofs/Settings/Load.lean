import Academy.Host
import Academy.Proofs.Files.Dataset
import Academy.Proofs.Settings.Layers
import Academy.Settings.Load

/-!
# Settings on a machine

Loading settings only looks at the files and at the environment of a
machine, and leaves it as it is. So what is loaded is a function of the
two, and each of them can be exchanged without the other.
-/

namespace Academy

variable {ε α : Type} {machine : Machine}

theorem Machine.Yields.run_bind {β : Type} {after : Machine} {a : α}
    {action : ExceptT ε (StateM Machine) α} {next : α → ExceptT ε (StateM Machine) β}
    (h : machine.Yields action a after) :
    (action >>= next).run.run machine = (next a).run.run after := by
  unfold Yields at h
  rw [ExceptT.run_bind, StateT.run_bind, h]
  rfl

theorem Machine.Yields.unique {after after' : Machine} {a b : α}
    {action : ExceptT ε (StateM Machine) α} (h : machine.Yields action a after)
    (h' : machine.Yields action b after') : a = b ∧ after = after' := by
  unfold Yields at h h'
  obtain ⟨hvalue, hafter⟩ := Prod.mk.inj (h.symm.trans h')
  exact ⟨Except.ok.inj hvalue, hafter⟩

/-! ## Looking at files -/

namespace FileTree

/-- The settings of the file of the given name. -/
def settingsIn (files : FileTree) (name : Path) :
    Except Failure (List (String × SettingValue)) :=
  match (settingsFiles name).find? files.isFile with
  | none => .error .settings
  | some path =>
    match SettingsFormat.ofPath? path, files.read path with
    | some format, .ok bytes =>
      match format.ofBytes? bytes with
      | some members => .ok members
      | none => .error .settings
    | _, _ => .error .settings

/-- The settings of the file that is named, if one is. -/
def settingsOf (files : FileTree) : Option Path → Except Failure (List (String × SettingValue))
  | some name => files.settingsIn name
  | none => .ok []

end FileTree

@[simp] theorem run_firstFile? (machine : Machine) (paths : List Path) :
    (firstFile? paths : StateM Machine _).run machine
      = (paths.find? machine.files.isFile, machine) := by
  induction paths with
  | nil => rfl
  | cons path paths ih =>
    unfold firstFile?
    rw [StateT.run_bind, show (Host.isFile path : StateM Machine _).run machine
      = pure (machine.files.isFile path, machine) from rfl, pure_bind]
    cases hfile : machine.files.isFile path with
    | true =>
      rw [List.find?_cons_of_pos hfile]
      rfl
    | false =>
      rw [List.find?_cons_of_neg (by rw [hfile]; exact Bool.false_ne_true)]
      exact ih

@[simp] theorem run_settingsInFile (machine : Machine) (name : Path) :
    (settingsInFile name : ExceptT Failure (StateM Machine) _).run.run machine
      = (machine.files.settingsIn name, machine) := by
  have hfirst : machine.Yields (ExceptT.lift (firstFile? (settingsFiles name)) :
      ExceptT Failure (StateM Machine) _) ((settingsFiles name).find? machine.files.isFile)
      machine := by
    unfold Machine.Yields
    rw [show (ExceptT.lift (firstFile? (settingsFiles name)) :
        ExceptT Failure (StateM Machine) _).run.run machine
      = (.ok ((firstFile? (settingsFiles name) : StateM Machine _).run machine).1,
        ((firstFile? (settingsFiles name) : StateM Machine _).run machine).2) from rfl,
      run_firstFile?]
  refine hfirst.run_bind.trans ?_
  unfold FileTree.settingsIn
  cases (settingsFiles name).find? machine.files.isFile with
  | none => rfl
  | some path =>
    have hread : machine.Yields (ExceptT.lift (Host.readFile path) :
        ExceptT Failure (StateM Machine) _) (machine.files.read path) machine := rfl
    refine hread.run_bind.trans ?_
    dsimp only
    cases SettingsFormat.ofPath? path with
    | none => rfl
    | some format =>
      cases machine.files.read path with
      | error fault => rfl
      | ok bytes =>
        dsimp only
        cases format.ofBytes? bytes <;> rfl

/-! ## Loading -/

/-- Settings by the members of a file and by the environment. -/
def Settings.loadOver (members : List (String × SettingValue)) :
    ExceptT Failure (StateM Machine) Settings := do
  match ofLayers members (← ExceptT.lift Host.environment) with
  | .ok settings => pure settings
  | .error error => throw (.ofSettings error)

theorem Settings.run_loadOver (members : List (String × SettingValue)) (machine : Machine) :
    (loadOver members).run.run machine
      = ((ofLayers members machine.environment).mapError Failure.ofSettings, machine) := by
  have henv : machine.Yields (ExceptT.lift Host.environment :
      ExceptT Failure (StateM Machine) _) machine.environment machine := rfl
  refine henv.run_bind.trans ?_
  cases ofLayers members machine.environment <;> rfl

/-- **Loading settings** is a function of the files and of the environment. -/
theorem Settings.run_load (config : Option Path) (machine : Machine) :
    (load config : ExceptT Failure (StateM Machine) _).run.run machine
      = ((machine.files.settingsOf config).bind fun members =>
          (ofLayers members machine.environment).mapError Failure.ofSettings, machine) := by
  cases config with
  | none => exact run_loadOver [] machine
  | some name =>
    have hfile := run_settingsInFile machine name
    show (settingsInFile name >>= loadOver : ExceptT Failure (StateM Machine) _).run.run machine
      = ((machine.files.settingsIn name).bind _, machine)
    cases hin : machine.files.settingsIn name with
    | error failure =>
      rw [hin] at hfile
      rw [ExceptT.run_bind, StateT.run_bind, hfile]
      rfl
    | ok members =>
      rw [hin] at hfile
      exact (Machine.Yields.run_bind hfile).trans (run_loadOver members machine)

/-- **Settings are loaded** where a file is read and can be met together with the
environment. -/
theorem Settings.yields_load_iff {config : Option Path} {machine after : Machine}
    {settings : Settings} :
    machine.Yields (load config) settings after
      ↔ after = machine ∧ ∃ members, machine.files.settingsOf config = .ok members ∧
        ofLayers members machine.environment = .ok settings := by
  unfold Machine.Yields
  rw [run_load, Prod.mk.injEq]
  constructor
  · rintro ⟨h, rfl⟩
    refine ⟨rfl, ?_⟩
    cases hmembers : machine.files.settingsOf config with
    | error failure =>
      rw [hmembers] at h
      exact nomatch h
    | ok members =>
      rw [hmembers] at h
      replace h : (ofLayers members machine.environment).mapError Failure.ofSettings
        = .ok settings := h
      refine ⟨members, rfl, ?_⟩
      cases hlayers : ofLayers members machine.environment with
      | error error =>
        rw [hlayers] at h
        exact nomatch h
      | ok loaded =>
        rw [hlayers] at h
        exact congrArg _ (Except.ok.inj h)
  · rintro ⟨rfl, members, hmembers, hlayers⟩
    rw [hmembers]
    refine ⟨?_, rfl⟩
    show (ofLayers members _).mapError _ = _
    rw [hlayers]
    rfl

/-! ## What a machine says -/

/-- A machine of which only the files and the environment matter. -/
def Machine.bare (files : FileTree) (environment : Environment) : Machine where
  files
  environment
  now := .ofSeconds 1700000000
  identifiers := ⟨0, 0, fun _ => 1700000000⟩
  freshWords := .ofSeed 0
  printed := ""

namespace Machine

/-- **A machine tells settings**: the file that is named, if one is, can be read,
and together with the environment it gives each setting a value of the kind
that it should be. -/
def Tells (machine : Machine) (config : Option Path) (told : Settings) : Prop :=
  (machine.files.settingsOf config).toOption.bind (Settings.merged? · machine.environment)
    = some told

instance (machine : Machine) (config : Option Path) (told : Settings) :
    Decidable (machine.Tells config told) :=
  inferInstanceAs (Decidable (_ = _))

variable {machine : Machine} {config : Option Path} {told : Settings}

theorem Tells.exists_members (h : machine.Tells config told) :
    ∃ members, machine.files.settingsOf config = .ok members ∧
      Settings.merged? members machine.environment = some told := by
  unfold Tells at h
  cases hmembers : machine.files.settingsOf config with
  | error failure =>
    rw [hmembers] at h
    exact nomatch h
  | ok members =>
    rw [hmembers] at h
    exact ⟨members, rfl, h⟩

theorem Tells.yields_load (h : machine.Tells config told)
    (hcounts : told.counts.validate = .ok ()) :
    machine.Yields (Settings.load config) told machine := by
  obtain ⟨members, hmembers, hmerged⟩ := h.exists_members
  exact Settings.yields_load_iff.mpr
    ⟨rfl, members, hmembers, Settings.ofLayers_of_ok hmerged hcounts⟩

end Machine

end Academy
