import Academy.CommandLine.Run
import Academy.Proofs.CommandLine.Verify
import Academy.Proofs.Settings.Load

/-!
# Which numbers of records are refused

The numbers of records come from four layers: what holds where nothing is
said, a file, the environment, and the options of the command. They are
looked at twice on the way to a dataset, once when the first three layers
have been laid over each other, and once more with the options on top.

So it is not the numbers at the end alone that decide. Options can ask for
what cannot be met, but they cannot mend a file and an environment that
do. A run is refused exactly if one of the two looks finds something, and
everything that comes after the second look fails for other reasons: a
date, a lack of room, a file.
-/

namespace Academy

variable {ε α β : Type}

/-! ## How actions end -/

namespace Machine

variable {machine middle : Machine} {a : α} {e : ε}

/-- **How an action ends** on a machine. -/
def outcome (machine : Machine) (action : ExceptT ε (StateM Machine) α) : Except ε α :=
  (action.run.run machine).1

theorem Yields.outcome_bind {action : ExceptT ε (StateM Machine) α}
    {next : α → ExceptT ε (StateM Machine) β} (h : machine.Yields action a middle) :
    machine.outcome (action >>= next) = middle.outcome (next a) :=
  congrArg Prod.fst h.run_bind

theorem outcome_bind_error {action : ExceptT ε (StateM Machine) α}
    {next : α → ExceptT ε (StateM Machine) β} (h : machine.outcome action = .error e) :
    machine.outcome (action >>= next) = .error e := by
  unfold outcome at h ⊢
  rw [ExceptT.run_bind, StateT.run_bind]
  generalize action.run.run machine = run at h
  obtain ⟨ended, after⟩ := run
  obtain rfl : ended = .error e := h
  rfl

/-- A heading is put over a failure, and nothing else is changed. -/
@[simp] theorem outcome_inContext (context : String) (action : ExceptT Failure (StateM Machine) α) :
    machine.outcome (inContext context action)
      = (machine.outcome action).mapError (RunFailure.mk context) := by
  unfold outcome inContext
  rw [ExceptT.run_mk, StateT.run_bind]
  generalize action.run.run machine = run
  obtain ⟨ended, after⟩ := run
  cases ended <;> rfl

end Machine

/-- **An action that fails for some reasons only**, on whatever machine. -/
def FailsOnly (action : ExceptT ε (StateM Machine) α) (E : ε → Prop) : Prop :=
  ∀ (machine : Machine) (e : ε), machine.outcome action = .error e → E e

section FailsOnly

variable {E : ε → Prop}

theorem failsOnly_pure (a : α) : FailsOnly (pure a : ExceptT ε (StateM Machine) α) E :=
  fun _ _ h => nomatch h

theorem failsOnly_throw {e : ε} (he : E e) :
    FailsOnly (throw e : ExceptT ε (StateM Machine) α) E :=
  fun _ _ h => Except.error.inj h ▸ he

theorem failsOnly_lift (action : StateM Machine α) :
    FailsOnly (ExceptT.lift action : ExceptT ε (StateM Machine) α) E :=
  fun _ _ h => nomatch h

theorem FailsOnly.bind {action : ExceptT ε (StateM Machine) α}
    {next : α → ExceptT ε (StateM Machine) β} (h : FailsOnly action E)
    (hnext : ∀ a, FailsOnly (next a) E) : FailsOnly (action >>= next) E := by
  intro machine e hfail
  cases hrun : action.run.run machine with
  | mk ended middle =>
    cases ended with
    | ok a =>
      have hyields : machine.Yields action a middle := hrun
      rw [hyields.outcome_bind] at hfail
      exact hnext a middle e hfail
    | error e' =>
      have hend : machine.outcome action = .error e' := congrArg Prod.fst hrun
      rw [Machine.outcome_bind_error hend] at hfail
      exact Except.error.inj hfail ▸ h machine e' hend

theorem failsOnly_mapM {f : α → ExceptT ε (StateM Machine) β} (h : ∀ a, FailsOnly (f a) E)
    (as : List α) : FailsOnly (as.mapM f) E := by
  induction as with
  | nil => exact failsOnly_pure []
  | cons a as ih =>
    rw [List.mapM_cons]
    exact (h a).bind fun b => ih.bind fun bs => failsOnly_pure (b :: bs)

theorem failsOnly_forM {f : α → ExceptT ε (StateM Machine) PUnit} (h : ∀ a, FailsOnly (f a) E)
    (as : List α) : FailsOnly (as.forM f) E := by
  induction as with
  | nil => exact failsOnly_pure _
  | cons a as ih => exact (h a).bind fun _ => ih

end FailsOnly

theorem FailsOnly.inContext {E : Failure → Prop} {action : ExceptT Failure (StateM Machine) α}
    (h : FailsOnly action E) (context : String) :
    FailsOnly (inContext context action) fun failure => E failure.cause := by
  intro machine failure hfail
  rw [Machine.outcome_inContext] at hfail
  cases hend : machine.outcome action with
  | ok a =>
    rw [hend] at hfail
    exact nomatch hfail
  | error cause =>
    rw [hend] at hfail
    obtain rfl : RunFailure.mk context cause = failure := Except.error.inj hfail
    exact h machine cause hend

/-! ## Refusals -/

/-- **Whether a failure refuses a run from the beginning**: there are no
settings, or numbers of records that cannot be met. -/
def Failure.refuses : Failure → Bool
  | settings => true
  | counts _ => true
  | _ => false

/-- **A run gets past its beginning.** It need not get further. -/
def GetsPast (ended : Except RunFailure α) : Prop :=
  ∀ failure, ended = .error failure → failure.cause.refuses = false

@[simp] theorem Failure.refuses_ofDraw (error : DrawError) : (ofDraw error).refuses = false := by
  cases error <;> rfl

/-! ## After the second look -/

theorem fileOutcome_failsOnly (path : Path) (attempt : StateM Machine (Except FileFault α)) :
    FailsOnly (fileOutcome path attempt) fun failure => failure.refuses = false := by
  refine (failsOnly_lift attempt).bind fun outcome => ?_
  cases outcome with
  | ok a => exact failsOnly_pure a
  | error fault => exact failsOnly_throw rfl

theorem Chunk.writeTo_failsOnly (path : Path) (chunk : Chunk) :
    FailsOnly (chunk.writeTo path : ExceptT Failure (StateM Machine) Unit)
      fun failure => failure.refuses = false := by
  have hrefuses : ∀ fault, (chunk.failure path fault).refuses = false := by
    intro fault
    unfold failure
    split <;> rfl
  refine (failsOnly_lift _).bind fun outcome => ?_
  cases outcome with
  | ok _ => exact failsOnly_pure _
  | error unwritten =>
    dsimp only
    cases chunk.waited with
    | false => exact failsOnly_throw (hrefuses _)
    | true => exact (failsOnly_lift _).bind fun _ => failsOnly_throw (hrefuses _)

/-- **Writing a dataset** does not refuse a run. -/
theorem Dataset.write_failsOnly (d : Dataset Identifier Instant) (dir : Path)
    (report : Written → StateM Machine Unit) :
    FailsOnly (d.write dir report) fun failure => failure.refuses = false := by
  refine (fileOutcome_failsOnly dir _).bind fun _ => failsOnly_mapM (fun c => ?_) Collection.all
  refine ((fileOutcome_failsOnly _ _).bind fun _ =>
    (failsOnly_forM (Chunk.writeTo_failsOnly _) _).bind fun _ => failsOnly_pure _).bind fun count => ?_
  exact (failsOnly_lift _).bind fun _ => failsOnly_pure _

/-- **Making a dataset** does not refuse a run. -/
theorem drawDataset_failsOnly (counts : Counts) (words : WordStream) :
    FailsOnly (drawDataset counts words : ExceptT Failure (StateM Machine) _)
      fun failure => failure.refuses = false := by
  refine (failsOnly_lift _).bind fun now => (failsOnly_lift _).bind fun source => ?_
  split
  · exact failsOnly_throw (Failure.refuses_ofDraw _)
  · exact (failsOnly_lift _).bind fun _ => failsOnly_pure _

/-! ## The second look -/

section

variable {settings : Settings} {output : Option Path} {seed : Option UInt64}
  {changes : CountChanges} {error : CountsError} {machine : Machine}

theorem Settings.generate_failsOnly
    (hcounts : (changes.apply settings.counts).validate = .ok ()) :
    FailsOnly (settings.generate output seed changes : ExceptT RunFailure (StateM Machine) _)
      fun failure => failure.cause.refuses = false := by
  have hvalid : FailsOnly
      (drawValid (changes.apply settings.counts) (seed <|> settings.seed) :
        ExceptT Failure (StateM Machine) _) fun failure => failure.refuses = false := by
    unfold drawValid
    rw [hcounts]
    exact (failsOnly_lift _).bind fun words => drawDataset_failsOnly _ words
  refine (hvalid.inContext _).bind fun dataset => ?_
  refine ((Dataset.write_failsOnly _ _ _).inContext _).bind fun written => ?_
  exact (failsOnly_lift _).bind fun _ => failsOnly_pure _

theorem Settings.outcome_generate_error
    (hcounts : (changes.apply settings.counts).validate = .error error) :
    machine.outcome (settings.generate output seed changes)
      = .error ⟨"初始化数据生成器失败", .counts error⟩ := by
  refine Machine.outcome_bind_error ?_
  rw [Machine.outcome_inContext]
  unfold drawValid
  rw [hcounts]
  rfl

end

/-! ## The first look -/

namespace Machine

variable {machine : Machine} {config : Option Path} {told : Settings}

theorem Tells.outcome_load (h : machine.Tells config told) {error : CountsError}
    (hcounts : told.counts.validate = .error error) :
    machine.outcome (Settings.load config) = .error (.counts error) := by
  obtain ⟨members, hmembers, hmerged⟩ := h.exists_members
  unfold outcome
  rw [Settings.run_load, hmembers]
  show (Settings.ofLayers members machine.environment).mapError _ = _
  rw [Settings.ofLayers_of_error hmerged hcounts]
  rfl

end Machine

/-! ## Layers -/

/-- **What a run that makes a dataset is told**, layer by layer: by the file and
the environment of a machine, whose values are of the kinds that they
should be, and by the options of the command. -/
structure Layering where
  /-- The machine with its files and its environment. -/
  machine : Machine
  /-- The file that is named, if one is. -/
  config : Option Path
  /-- What the file and the environment say, over what holds where nothing is
  said. -/
  told : Settings
  tells : machine.Tells config told
  /-- The numbers of records that the options ask for. -/
  changes : CountChanges
  /-- Where the options say that the files go. -/
  output : Option Path := none
  /-- The seed that the options give. -/
  seed : Option UInt64 := none
  /-- How much is logged. -/
  logLevel : String := "info"

namespace Layering

/-- **The numbers of records** when all layers lie over each other. -/
def counts (l : Layering) : Counts :=
  l.changes.apply l.told.counts

/-- What the arguments of the run ask for. -/
def invocation (l : Layering) : Invocation where
  logLevel := l.logLevel
  config := l.config
  command := .generate l.output l.seed l.changes

/-- **The run is accepted**: it gets past its settings and to making a dataset. -/
def Accepted (l : Layering) : Prop :=
  GetsPast (l.machine.outcome l.invocation.run)

/-- A run whose file and environment cannot be met ends with that, whatever the
options say. -/
theorem outcome_of_told_error (l : Layering) {error : CountsError}
    (hcounts : l.told.counts.validate = .error error) :
    l.machine.outcome l.invocation.run = .error ⟨"加载配置失败", .counts error⟩ := by
  refine Machine.outcome_bind_error ?_
  rw [Machine.outcome_inContext]
  exact congrArg _ (l.tells.outcome_load hcounts)

/-- Where they can be met, the run goes on to the dataset. -/
theorem outcome_of_told_ok (l : Layering) (hcounts : l.told.counts.validate = .ok ()) :
    l.machine.outcome l.invocation.run
      = l.machine.outcome (l.invocation.command.run l.told) :=
  ((l.tells.yields_load hcounts).inContext _).outcome_bind

/-- **Both looks decide**, and nothing else does. -/
theorem accepted_iff_both (l : Layering) :
    l.Accepted ↔ l.told.counts.validate = .ok () ∧ l.counts.validate = .ok () := by
  unfold Accepted
  cases hfirst : l.told.counts.validate with
  | error error =>
    rw [l.outcome_of_told_error hfirst]
    exact iff_of_false (fun h => nomatch h _ rfl) (fun h => nomatch h.1)
  | ok =>
    rw [l.outcome_of_told_ok hfirst]
    cases hsecond : l.counts.validate with
    | error error =>
      rw [show l.machine.outcome (l.invocation.command.run l.told)
          = .error ⟨"初始化数据生成器失败", .counts error⟩ from
        Machine.outcome_bind_error (Settings.outcome_generate_error hsecond)]
      exact iff_of_false (fun h => nomatch h _ rfl) (fun h => nomatch h.2)
    | ok =>
      have hrest : FailsOnly (l.invocation.command.run l.told : ExceptT _ (StateM Machine) _)
          fun failure => failure.cause.refuses = false :=
        (Settings.generate_failsOnly hsecond).bind fun _ => failsOnly_pure ()
      exact iff_of_true (hrest l.machine) ⟨rfl, rfl⟩

/-- **A run is accepted exactly if the numbers of records can be met both times
that they are looked at**: those of the file and the environment, and those
that come of the options over them. So of two ways to come to the same
numbers, one is accepted if the other is, as long as their files and
environments are alike in whether they can be met. -/
theorem accepted_exactly (l : Layering) :
    (l.Accepted ↔ l.told.counts.validate = .ok () ∧ l.counts.validate = .ok ()) ∧
      ∀ l' : Layering, l'.counts = l.counts →
        (l'.told.counts.validate = .ok () ↔ l.told.counts.validate = .ok ()) →
        (l'.Accepted ↔ l.Accepted) := by
  refine ⟨l.accepted_iff_both, fun l' hcounts htold => ?_⟩
  rw [l'.accepted_iff_both, l.accepted_iff_both, hcounts, htold]

/-! ## Layers that come to the same numbers -/

/-- Twelve instructors by a file, ten by the environment over it, and no students
and what they do by the options. -/
def byAllLayers : Layering where
  machine := .bare
    { entries := [(["edu.toml"],
      .file ("counts.instructors = 12\n".toList.map fun c => .ofNat c.toNat))] }
    [("edu_seed__counts__instructors", "10")]
  config := some "edu"
  told := { Settings.standard with counts := { Counts.standard with instructors := 10 } }
  tells := by decide +kernel
  changes := { CountChanges.none with
    students := some 0, enrollments := some 0, reviews := some 0, payments := some 0 }

/-- The same numbers by the options alone. -/
def byOptions : Layering where
  machine := .bare {} []
  config := none
  told := Settings.standard
  tells := by decide +kernel
  changes := { CountChanges.none with
    instructors := some 10
    students := some 0, enrollments := some 0, reviews := some 0, payments := some 0 }

theorem accepted_exactly_byOptions :
    byAllLayers.Accepted ∧ byOptions.counts = byAllLayers.counts ∧
      (byOptions.Accepted ↔ byAllLayers.Accepted) :=
  have hexactly := accepted_exactly byAllLayers
  ⟨hexactly.1.mpr ⟨by decide, by decide⟩, by decide,
    hexactly.2 byOptions (by decide) (by decide)⟩

/-- Ten instructors by the options, over forty by the environment. -/
def mended : Layering where
  machine := .bare {} [("EDU_SEED__COUNTS__INSTRUCTORS", "40")]
  config := none
  told := { Settings.standard with counts := { Counts.standard with instructors := 40 } }
  tells := by decide +kernel
  changes := { CountChanges.none with instructors := some 10 }

/-- **Options do not mend** what the environment asks for: the numbers at the end
can be met, and the run is refused. -/
theorem mended_not_accepted : mended.counts.validate = .ok () ∧ ¬ mended.Accepted :=
  ⟨by decide, fun h => absurd (mended.accepted_iff_both.mp h).1 (by decide)⟩

end Layering

end Academy
