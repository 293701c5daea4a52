import Academy.CommandLine.Run
import Academy.Proofs.Files.Dataset
import Academy.Proofs.Integrity.Generated
import Academy.Proofs.Json.Places

/-!
# What is made and written is verified

A dataset that has been made is written to a directory, read again and
checked. Three things have been shown of it by now. Its numbers have one
or two decimal places and are not large, so they survive being written in
decimal; its records keep the rules; and a directory of files gives back
what was written to it, with the dates cut off at the millisecond.

The rules do not look at dates, except at whether one is there. So the
dataset that is read keeps them as well, and verifying the directory ends
with the numbers of records that were made.
-/

namespace Academy

variable {Ref Date : Type}

namespace Dataset

/-! ## Numbers -/

/-- **The numbers of sound records survive.** -/
theorem Record.Sound.survives {d : Dataset Ref Date} (c : Collection) {r : Record Ref Date c}
    (h : Record.Sound d c r) : ∀ x ∈ Record.numbers c r, x.Survives := by
  cases c with
  | categories => exact nofun
  | instructors =>
    have h : Instructor.Sound r := h
    exact List.forall_mem_singleton.mpr (h.rating.survives_two (by decide))
  | students => exact nofun
  | courses =>
    have h : Course.Sound d.categories d.instructors r := h
    exact List.forall_mem_cons.mpr ⟨h.price.survives_two (by decide),
      List.forall_mem_cons.mpr ⟨h.hours.survives_one (by decide),
        List.forall_mem_singleton.mpr (h.rating.survives_two (by decide))⟩⟩
  | enrollments =>
    have h : Enrollment.Sound d.students d.courses r := h
    exact fun x hx => (h.grade x (Option.mem_toList.mp hx)).survives_one (by decide)
  | reviews => exact nofun
  | payments =>
    have h : Payment.Sound d.students d.courses r := h
    exact List.forall_mem_singleton.mpr (h.amount.survives_two (by decide))

theorem Sound.storable {d : Dataset Identifier Instant} (h : d.Sound) (hyears : d.FourDigitYears) :
    d.Storable :=
  fun c r hr => ⟨hyears c r hr, Record.Sound.survives c (h c r hr)⟩

/-! ## Dates -/

@[simp] theorem index_mapDates (f : Date → Date) (d : Dataset Ref Date) :
    Index.ofDataset (d.mapDates f) = Index.ofDataset d := by
  have hcategories : (d.mapDates f).categories = d.categories := List.map_id _
  have hinstructors : (d.mapDates f).instructors = d.instructors := List.map_id _
  have hstudents : (d.mapDates f).students.map (·.id) = d.students.map (·.id) := List.map_map
  have hcourses : (d.mapDates f).courses.map (·.id) = d.courses.map (·.id) := List.map_map
  unfold Index.ofDataset
  rw [hcategories, hinstructors, hstudents, hcourses]

/-- **The check does not look at dates**, except at whether one is there. -/
@[simp] theorem check_mapDates [DecidableEq Ref] (f : Date → Date) (d : Dataset Ref Date) :
    (d.mapDates f).check = d.check := by
  have hcourses : (d.mapDates f).courses
    = d.courses.map fun c => { c with createdAt := f c.createdAt } := rfl
  have henrollments : (d.mapDates f).enrollments = d.enrollments.map fun e =>
    { e with enrolledAt := f e.enrolledAt, lastAccessed := e.lastAccessed.map f } := rfl
  have hreviews : (d.mapDates f).reviews
    = d.reviews.map fun r => { r with createdAt := f r.createdAt } := rfl
  have hpayments : (d.mapDates f).payments
    = d.payments.map fun p => { p with paidAt := f p.paidAt } := rfl
  unfold check
  rw [hcourses, henrollments, hreviews, hpayments]
  simp [List.flatMap_map, Course.brokenRules, Enrollment.brokenRules, Review.brokenRules,
    Payment.brokenRules]

@[simp] theorem counts_mapDates (f : Date → Date) (d : Dataset Ref Date) :
    (d.mapDates f).counts = d.counts := by
  have hlength : ∀ c, ((d.mapDates f).records c).length = (d.records c).length := by
    intro c
    cases c <;> exact List.length_map _
  unfold counts
  exact congrArg PerCollection.ofFn (funext hlength)

end Dataset

/-! ## Verifying -/

theorem Machine.Yields.inContext {α : Type} {machine after : Machine}
    {action : ExceptT Failure (StateM Machine) α} {a : α} (h : machine.Yields action a after)
    (context : String) : machine.Yields (Academy.inContext context action) a after := by
  unfold Yields at h ⊢
  unfold Academy.inContext
  rw [ExceptT.run_mk, StateT.run_bind, h]
  rfl

/-- **Verifying succeeds** where a clean dataset is read. -/
theorem Settings.yields_verify {settings : Settings} {input : Option Path} {machine : Machine}
    {d : Dataset Identifier Instant}
    (hread : machine.Yields (Dataset.read (input.getD settings.outputDir)) d machine)
    (hclean : d.check.isClean = true) :
    ∃ after, machine.Yields (settings.verify input) d.counts after := by
  have hrequired : ∀ machine : Machine, machine.Yields d.check.requireClean () machine := by
    intro machine
    have hrun := d.check.run_requireClean machine
    rwa [if_pos hclean] at hrun
  exact ⟨_, (hread.inContext _).bind ((Machine.yields_lift _).bind
    (((hrequired _).inContext _).bind ((Machine.yields_lift _).bind (Machine.yields_pure _))))⟩

/-- **What is made and written is verified.** Take numbers of records that can be
met, any state of the words and any source of identifiers, and say that the
dates of the dataset that is made are in years of four digits. Then the
dataset can be written to any directory that can hold it, whatever was in
its files before; reading the directory gives the dataset that was made,
record for record, with its dates cut off at the millisecond; and
verifying it ends with the numbers of its records. -/
theorem Dataset.draw_write_read {counts : Counts} (hcounts : counts.validate = .ok ())
    {source : Identifier.Source} {now : Instant} {room : Nat} {stream : WordStream}
    {d : Dataset Identifier Instant}
    (hdraw : ((draw room counts now.timeline source.identifier).readFrom stream).1 = .ok d)
    (hyears : d.FourDigitYears) {machine : Machine} {dir : Path}
    (hdir : machine.files.CanHold dir d) :
    ∃ written, machine.Yields (d.write dir fun _ => pure ()) (Collection.all.map (d.written dir))
        written ∧
      written.Yields (Dataset.read dir) (d.mapDates Instant.truncate) written ∧
      ∀ (settings : Settings) (input : Option Path), input.getD settings.outputDir = dir →
        ∃ verified, written.Yields (settings.verify input) d.counts verified := by
  have hgives : (draw room counts now.timeline source.identifier).Gives (fun _ => True) _ :=
    draw_gives hcounts (fun _ => trivial) (fun _ _ => trivial)
  replace hgives := hgives stream
  rw [hdraw] at hgives
  obtain ⟨hsound, rfl, hids⟩ := hgives
  have hquiet : KeepsFiles fun _ => pure () := fun _ _ => rfl
  obtain ⟨written, hwritten, hread⟩ := yields_write_read hquiet hdir (hsound.storable hyears)
  refine ⟨written, hwritten, hread, ?_⟩
  rintro settings input rfl
  -- cutting off the dates is nothing that the check could see
  have hclean : (d.mapDates Instant.truncate).check.isClean = true := by
    simpa using Sound.keepsRules_of_ids hsound hcounts hids
  have hverified := Settings.yields_verify hread hclean
  simpa using hverified

/-- One record of each kind, written over files of which one is longer and no
dataset, by a source whose counter comes round. -/
theorem Dataset.draw_write_read_small :
    let counts : Counts := ⟨1, 1, 1, 1, 1, 1, 1⟩
    let now : Instant := ⟨1700000000, 123456789, .inl (by decide)⟩
    let source : Identifier.Source := ⟨7, 16777213, fun _ => 1700000000⟩
    let files : FileTree := { entries := [(["out"], .directory),
      (["out", "students.json"], .file (List.replicate 5000 0x7B))] }
    counts.validate = .ok () ∧ (∀ d, files.CanHold "out" d) ∧
      ∃ d, ((draw memoryLimit counts now.timeline source.identifier).readFrom (.ofSeed 42)).1 = .ok d ∧
        d.FourDigitYears ∧ ∀ machine : Machine, machine.files = files →
          ∃ written, machine.Yields (d.write "out" fun _ => pure ())
              (Collection.all.map (d.written "out")) written ∧
            written.Yields (Dataset.read "out") (d.mapDates Instant.truncate) written := by
  intro counts now source files
  have hcounts : counts.validate = .ok () := by decide
  have hplace : ∀ c : Collection, files.FilePlace (c.pathIn "out") ["out", c.fileName] := by
    intro c
    cases c <;> exact ⟨⟨["out"], by decide +kernel⟩, by decide +kernel, by decide +kernel,
      by decide +kernel⟩
  have hdir : ∀ d, files.CanHold "out" d := FileTree.canHold_of_filePlaces (by decide +kernel)
    hplace (fun c c' h => Collection.fileName_inj (List.cons.inj (List.cons.inj h).2).1)
    fun _ _ => rfl
  have hdraw : ∃ d, ((draw memoryLimit counts now.timeline source.identifier).readFrom
      (.ofSeed 42)).1 = .ok d ∧ d.FourDigitYears := by
    have hmade : (match ((draw memoryLimit counts now.timeline source.identifier).readFrom
        (.ofSeed 42)).1 with
      | .ok d => decide d.FourDigitYears
      | .error _ => false) = true := by decide +kernel
    generalize (Draw.readFrom _ (.ofSeed 42)).1 = outcome at hmade
    rcases outcome with e | d
    · exact nomatch hmade
    · exact ⟨d, rfl, of_decide_eq_true hmade⟩
  obtain ⟨d, hd, hyears⟩ := hdraw
  refine ⟨hcounts, hdir, d, hd, hyears, fun machine hfiles => ?_⟩
  obtain ⟨written, hwritten, hread, -⟩ :=
    Dataset.draw_write_read hcounts hd hyears (hfiles ▸ hdir d : machine.files.CanHold "out" d)
  exact ⟨written, hwritten, hread⟩

end Academy
