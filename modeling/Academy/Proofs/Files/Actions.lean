import Academy.Files.Dataset
import Academy.Host

/-!
# Actions on a machine

An action that may fail either succeeds on a machine, with a value
(`Machine.Yields`), or fails, with a failure (`Machine.Fails`), and leaves
the machine as another. Two actions one after the other are known by these
two relations.

Something may be kept beside the machine while an action runs
(`Machine.runBeside`). An action that has nothing to do with what is kept
runs as it would alone (`Beside`), so that what is shown of it once holds
whatever is kept.
-/

namespace Academy

/-! ## Actions that succeed -/

/-- **An action succeeds** on a machine with a value, and leaves the machine as
another. -/
def Machine.Yields {ε α : Type} (machine : Machine) (action : ExceptT ε (StateM Machine) α)
    (a : α) (after : Machine) : Prop :=
  action.run.run machine = (.ok a, after)

/-- **An action fails** on a machine, and leaves the machine as another. -/
def Machine.Fails {ε α : Type} (machine : Machine) (action : ExceptT ε (StateM Machine) α) (e : ε)
    (after : Machine) : Prop :=
  action.run.run machine = (.error e, after)

namespace Machine

variable {ε α β : Type} {machine middle after : Machine} {path : Path} {a : α} {b : β} {e : ε}

theorem yields_pure (a : α) : machine.Yields (pure a : ExceptT ε (StateM Machine) α) a machine :=
  rfl

theorem Yields.bind {action : ExceptT ε (StateM Machine) α}
    {next : α → ExceptT ε (StateM Machine) β} (h : machine.Yields action a middle)
    (hnext : middle.Yields (next a) b after) : machine.Yields (action >>= next) b after := by
  unfold Yields at h hnext ⊢
  rw [ExceptT.run_bind, StateT.run_bind, h]
  exact hnext

/-- **Two actions succeed one after the other** only if both succeed. -/
theorem Yields.of_bind {action : ExceptT ε (StateM Machine) α}
    {next : α → ExceptT ε (StateM Machine) β} (h : machine.Yields (action >>= next) b after) :
    ∃ a middle, machine.Yields action a middle ∧ middle.Yields (next a) b after := by
  unfold Yields at h ⊢
  rw [ExceptT.run_bind, StateT.run_bind] at h
  generalize hrun : action.run.run machine = run at h
  obtain ⟨outcome, middle⟩ := run
  cases outcome with
  | error e => exact nomatch congrArg Prod.fst (show (Except.error e, middle) = _ from h)
  | ok a => exact ⟨a, middle, rfl, h⟩

theorem yields_lift (action : StateM Machine α) :
    machine.Yields (ExceptT.lift action : ExceptT ε (StateM Machine) α) (action.run machine).1
      (action.run machine).2 :=
  rfl

/-- **Two actions one after the other fail** where the first fails, or where the
second fails after the first. -/
theorem fails_bind_iff {action : ExceptT ε (StateM Machine) α}
    {next : α → ExceptT ε (StateM Machine) β} :
    machine.Fails (action >>= next) e after ↔
      machine.Fails action e after ∨
        ∃ a middle, machine.Yields action a middle ∧ middle.Fails (next a) e after := by
  unfold Fails Yields
  rw [ExceptT.run_bind, StateT.run_bind]
  generalize action.run.run machine = run
  obtain ⟨outcome, middle⟩ := run
  cases outcome with
  | error e' =>
    constructor
    · intro h
      obtain ⟨he, rfl⟩ := Prod.mk.inj (show (Except.error e', middle) = (.error e, after) from h)
      exact .inl (congrArg (fun e => (Except.error e, middle)) (Except.error.inj he))
    · rintro (h | ⟨a, middle', h, -⟩)
      · obtain ⟨he, rfl⟩ := Prod.mk.inj h
        exact congrArg (fun e => (Except.error e, middle)) (Except.error.inj he)
      · exact nomatch congrArg Prod.fst h
  | ok a =>
    constructor
    · exact fun h => .inr ⟨a, middle, rfl, h⟩
    · rintro (h | ⟨a', middle', h, hnext⟩)
      · exact nomatch congrArg Prod.fst h
      · obtain ⟨ha, rfl⟩ := Prod.mk.inj h
        obtain rfl := Except.ok.inj ha
        exact hnext

theorem Fails.bind {action : ExceptT ε (StateM Machine) α}
    (h : machine.Fails action e after) (next : α → ExceptT ε (StateM Machine) β) :
    machine.Fails (action >>= next) e after :=
  fails_bind_iff.mpr (.inl h)

theorem Yields.bind_fails {action : ExceptT ε (StateM Machine) α}
    {next : α → ExceptT ε (StateM Machine) β} (h : machine.Yields action a middle)
    (hnext : middle.Fails (next a) e after) : machine.Fails (action >>= next) e after :=
  fails_bind_iff.mpr (.inr ⟨a, middle, h, hnext⟩)

/-! ## Attempts at files -/

/-- An attempt at a file that succeeds. -/
theorem yields_fileOutcome {attempt : StateM Machine (Except FileFault α)}
    (h : attempt.run machine = (.ok a, after)) :
    machine.Yields (fileOutcome path attempt) a after := by
  refine (yields_lift attempt).bind ?_
  rw [h]
  exact yields_pure a

theorem Yields.of_fileOutcome {attempt : StateM Machine (Except FileFault α)}
    (h : machine.Yields (fileOutcome path attempt) a after) :
    attempt.run machine = (.ok a, after) := by
  obtain ⟨outcome, middle, hlift, houtcome⟩ := h.of_bind
  have hrun : attempt.run machine = (outcome, middle) := by
    obtain ⟨hsame, rfl⟩ := Prod.mk.inj hlift
    rw [← Except.ok.inj hsame]
    rfl
  rw [hrun]
  cases outcome with
  | error fault => exact nomatch congrArg Prod.fst houtcome
  | ok b =>
    obtain ⟨hsame, rfl⟩ := Prod.mk.inj houtcome
    rw [Except.ok.inj hsame]

/-- An attempt at a file that fails. -/
theorem fails_fileOutcome {attempt : StateM Machine (Except FileFault α)} {fault : FileFault}
    (h : attempt.run machine = (.error fault, after)) :
    machine.Fails (fileOutcome path attempt) (.file path fault) after := by
  refine (yields_lift attempt).bind_fails ?_
  rw [h]
  rfl

end Machine

/-! ## Runs beside which something is kept -/

section

variable {ε α β σ : Type}

/-- What comes of an action on a machine beside which something is kept. -/
def Machine.runBeside (machine : Machine) (kept : σ)
    (action : ExceptT ε (StateT σ (StateM Machine)) α) : (Except ε α × σ) × Machine :=
  (action.run.run kept).run machine

namespace Machine

variable {machine middle : Machine} {kept kept' : σ}
  {action : ExceptT ε (StateT σ (StateM Machine)) α} {a : α}

theorem runBeside_bind {next : α → ExceptT ε (StateT σ (StateM Machine)) β}
    (h : machine.runBeside kept action = ((.ok a, kept'), middle)) :
    machine.runBeside kept (action >>= next) = middle.runBeside kept' (next a) := by
  unfold runBeside at h ⊢
  rw [ExceptT.run_bind, StateT.run_bind, StateT.run_bind, h]
  rfl

theorem runBeside_bind_error {next : α → ExceptT ε (StateT σ (StateM Machine)) β} {e : ε}
    (h : machine.runBeside kept action = ((.error e, kept'), middle)) :
    machine.runBeside kept (action >>= next) = ((.error e, kept'), middle) := by
  unfold runBeside at h ⊢
  rw [ExceptT.run_bind, StateT.run_bind, StateT.run_bind, h]
  rfl

end Machine

/-- **An action runs beside something as another does alone**, and leaves alone what
is kept. -/
def Beside (action : ExceptT ε (StateT σ (StateM Machine)) α)
    (alone : ExceptT ε (StateM Machine) α) : Prop :=
  ∀ (machine : Machine) (kept : σ), machine.runBeside kept action
    = (((alone.run.run machine).1, kept), (alone.run.run machine).2)

namespace Beside

variable {action : ExceptT ε (StateT σ (StateM Machine)) α}
  {alone : ExceptT ε (StateM Machine) α} {next : α → ExceptT ε (StateT σ (StateM Machine)) β}
  {nextAlone : α → ExceptT ε (StateM Machine) β}

theorem pure (a : α) : Beside (Pure.pure a : ExceptT ε (StateT σ (StateM Machine)) α)
    (Pure.pure a) :=
  fun _ _ => rfl

theorem throw (e : ε) : Beside (MonadExcept.throw e : ExceptT ε (StateT σ (StateM Machine)) α)
    (MonadExcept.throw e) :=
  fun _ _ => rfl

theorem lift (attempt : StateM Machine α) :
    Beside (ExceptT.lift (StateT.lift attempt) : ExceptT ε (StateT σ (StateM Machine)) α)
      (ExceptT.lift attempt) :=
  fun _ _ => rfl

theorem bind (h : Beside action alone) (hnext : ∀ a, Beside (next a) (nextAlone a)) :
    Beside (action >>= next) (alone >>= nextAlone) := by
  intro machine kept
  have hrun := h machine kept
  rw [ExceptT.run_bind, StateT.run_bind]
  generalize alone.run.run machine = run at hrun ⊢
  obtain ⟨_ | a, middle⟩ := run
  · exact Machine.runBeside_bind_error hrun
  · exact (Machine.runBeside_bind hrun).trans (hnext a middle kept)

theorem forM {γ : Type} {f : γ → ExceptT ε (StateT σ (StateM Machine)) PUnit}
    {g : γ → ExceptT ε (StateM Machine) PUnit} (h : ∀ c, Beside (f c) (g c)) (cs : List γ) :
    Beside (cs.forM f) (cs.forM g) := by
  induction cs with
  | nil => exact pure _
  | cons c cs ih => exact (h c).bind fun _ => ih

theorem fileOutcome (path : Path) (attempt : StateM Machine (Except FileFault α)) :
    Beside (Academy.fileOutcome path (StateT.lift attempt) :
        ExceptT Failure (StateT σ (StateM Machine)) α) (Academy.fileOutcome path attempt) := by
  refine (lift attempt).bind fun outcome => ?_
  cases outcome with
  | ok a => exact pure a
  | error fault => exact throw _

/-- **What succeeds alone** succeeds beside anything. -/
theorem yields {machine after : Machine} {a : α} (h : Beside action alone)
    (hyields : machine.Yields alone a after) (kept : σ) :
    machine.runBeside kept action = ((.ok a, kept), after) := by
  unfold Machine.Yields at hyields
  rw [h machine kept, hyields]

theorem fails {machine after : Machine} {e : ε} (h : Beside action alone)
    (hfails : machine.Fails alone e after) (kept : σ) :
    machine.runBeside kept action = ((.error e, kept), after) := by
  unfold Machine.Fails at hfails
  rw [h machine kept, hfails]

end Beside

end

end Academy
