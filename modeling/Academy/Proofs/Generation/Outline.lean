import Academy.Proofs.Generation.Renaming
import Academy.Proofs.Integrity.Generated

/-!
# What is made, apart from names and dates

From one stream of words two programs that differ in where identifiers
come from and in what the clock shows make the same dataset, as far as one
can say so of datasets whose identifiers and dates are different. What
they have in common is an `Outline`: the content of each record, how many
days back each of its dates lies, and at which position the records stand
to which it refers.

The outline is read off a run in which records are known by their places
and dates by numbers of days (`drawPlaces`). Every other run is this one
renamed, so it follows the same outline, and it ends with the stream in
the same state.
-/

namespace Academy

variable {Ref Ref' Date Date' : Type}

namespace Dataset

/-! ## Outlines -/

/-- **What the records of a collection are like**, in their order. -/
structure Outline (c : Collection) where
  /-- What is in them beside names and dates. -/
  content : List (Record Unit Unit c)
  /-- How many days back the dates of each record lie. -/
  days : List (List Nat)
  /-- What each record refers to: a collection, and a position in it. -/
  targets : List (List (Collection × Nat))

/-- What the record at a position is known by, if there is one. -/
def idAt (d : Dataset Ref Date) (c : Collection) (position : Nat) : Option Ref :=
  (d.records c)[position]?.map (Record.id c)

/-- **A collection that follows an outline** in the given present. -/
structure Follows (d : Dataset Ref Instant) (now : Instant) {c : Collection} (outline : Outline c) :
    Prop where
  /-- Its records have the content. -/
  content : (d.records c).map (Record.content c) = outline.content
  /-- Their dates lie so many days before the present. -/
  dates : (d.records c).map (Record.dates c) = outline.days.map (·.map now.daysBefore)
  /-- They refer to what the records at the positions are known by, and there
  are records at the positions. -/
  references :
    ((d.records c).map fun r => (Record.references c r).map fun (into, ref) => (into, some ref))
      = outline.targets.map (·.map fun (into, position) => (into, d.idAt into position))

/-! ## References that lead somewhere -/

/-- **All references lead to records.** -/
def Resolves (d : Dataset Ref Date) : Prop :=
  ∀ c, ∀ r ∈ d.records c, ∀ p ∈ Record.references c r,
    ∃ target ∈ d.records p.1, Record.id p.1 target = p.2

/-- Sound records refer to records that there are. -/
theorem Sound.resolves {d : Dataset Ref Date} (h : d.Sound) : d.Resolves := by
  intro c r hr p hp
  have hsound := h c r hr
  have hpair {student course : Ref} (h : Participates d.students d.courses student course) :
      (∃ target ∈ d.records .students, Record.id .students target = student) ∧
        ∃ target ∈ d.records .courses, Record.id .courses target = course := h
  cases c with
  | categories => exact nomatch hp
  | instructors => exact nomatch hp
  | students => exact nomatch hp
  | courses =>
    obtain ⟨category, hcategory, instructor, hinstructor, hc, hi, -⟩ := Course.Sound.taught hsound
    rcases List.mem_pair.mp hp with rfl | rfl
    · exact ⟨category, hcategory, hc.symm⟩
    · exact ⟨instructor, hinstructor, hi.symm⟩
  | enrollments =>
    rcases List.mem_pair.mp hp with rfl | rfl
    · exact (hpair (Enrollment.Sound.participates hsound)).1
    · exact (hpair (Enrollment.Sound.participates hsound)).2
  | reviews =>
    rcases List.mem_pair.mp hp with rfl | rfl
    · exact (hpair (Review.Sound.participates hsound)).1
    · exact (hpair (Review.Sound.participates hsound)).2
  | payments =>
    rcases List.mem_pair.mp hp with rfl | rfl
    · exact (hpair (Payment.Sound.participates hsound)).1
    · exact (hpair (Payment.Sound.participates hsound)).2

/-! ## The outline of a run -/

@[simp]
theorem records_rename (ρ : Renaming Ref Date Ref' Date') (d : Dataset Ref Date) (c : Collection) :
    (d.rename ρ).records c = (d.records c).map (Record.rename ρ c) :=
  records_ofRecords _ c

@[simp]
theorem idAt_rename (ρ : Renaming Ref Date Ref' Date') (d : Dataset Ref Date) (c : Collection)
    (position : Nat) : (d.rename ρ).idAt c position = (d.idAt c position).map ρ.own := by
  unfold idAt
  simp [Function.comp_def]

variable [DecidableEq Ref]

/-- The first position of a record that is known by the given name. -/
def positionOf (d : Dataset Ref Date) (c : Collection) (ref : Ref) : Nat :=
  (d.records c).findIdx fun r => Record.id c r = ref

theorem idAt_positionOf {d : Dataset Ref Date} {c : Collection} {ref : Ref}
    (h : ∃ r ∈ d.records c, Record.id c r = ref) : d.idAt c (d.positionOf c ref) = some ref := by
  have hlt : d.positionOf c ref < (d.records c).length :=
    List.findIdx_lt_length_of_exists (by simpa using h)
  have hid : decide (Record.id c (d.records c)[d.positionOf c ref] = ref) = true :=
    List.findIdx_getElem (w := hlt)
  rw [idAt, List.getElem?_eq_getElem hlt, Option.map_some, of_decide_eq_true hid]

/-- **The outline of a collection** whose dates are numbers of days. -/
def outline (d : Dataset Ref Nat) (c : Collection) : Outline c where
  content := (d.records c).map (Record.content c)
  days := (d.records c).map (Record.dates c)
  targets := (d.records c).map fun r =>
    (Record.references c r).map fun (into, ref) => (into, d.positionOf into ref)

/-- **A renamed dataset follows the outline** of the dataset before it is renamed. -/
theorem rename_follows {d : Dataset Ref Nat} (h : d.Resolves) (name : Ref → Ref') (now : Instant)
    (c : Collection) : (d.rename (.uniform name now.daysBefore)).Follows now (d.outline c) where
  content := by
    simp [outline]
  dates := by
    simp [outline, Renaming.uniform]
  references := by
    rw [records_rename, List.map_map]
    unfold outline
    rw [List.map_map]
    refine List.map_congr_left fun r hr => ?_
    dsimp only [Function.comp_apply]
    rw [Record.references_rename, List.map_map, List.map_map]
    refine List.map_congr_left fun p hp => ?_
    dsimp only [Function.comp_apply]
    rw [idAt_rename, idAt_positionOf (h c r hr p hp)]
    rfl

end Dataset

/-! ## One run for all -/

/-- The present as that from which days are counted. -/
def Timeline.days : Timeline Nat where
  reach := earliestDays
  daysBefore days := days

namespace Dataset

variable {room : Nat} {counts : Counts}

/-- **A dataset whose records are known by their places**, and whose dates are
numbers of days. -/
def drawPlaces (room : Nat) (counts : Counts) : Draw (Dataset Nat Nat) :=
  draw room counts .days fun place => place

/-- **Every run is this one renamed.** -/
theorem draw_eq_drawPlaces {now : Instant} (hnow : (now.daysBefore 1095).inCalendar = true)
    (ids : Nat → Ref) :
    draw room counts now.timeline ids
      = Dataset.rename (.uniform ids now.daysBefore) <$> drawPlaces room counts :=
  draw_rename (Renaming.carries_of_reach (Nat.le_refl _) (Instant.le_reach hnow) fun _ => rfl) rfl
    fun _ => rfl

theorem drawPlaces_gives :
    (drawPlaces room counts).Gives
      (fun e => e = .memory ∧ ∃ c : Collection, c.TakesRoom ∧ room < counts.get c)
      (fun d => d.Resolves) := by
  have hgives : (draw room counts .days fun place => place).Gives
      (fun e => e = .memory ∧ ∃ c : Collection, c.TakesRoom ∧ room < counts.get c) _ :=
    draw_gives_met (fun h => absurd h (Nat.lt_irrefl _)) fun c hc h => ⟨rfl, c, hc, h⟩
  exact hgives.imp fun d h => h.1.resolves

/-- **What is made depends on identifiers and on the clock in nothing but
identifiers and dates.** Take any numbers of records, accepted or not, and any
state of the words. Whatever records are known by, and whatever the present
is, as long as the calendar holds as many days before it as dates go back:
the stream is left in one and the same state, and there is one outline that
the datasets made in all of these runs follow. They have the same records up
to names and dates, each date lies the same number of days before the present
of its run, and each record refers to what is at the same position. Where
there is no room for a collection, there is none in any of these runs. -/
theorem draw_outline (counts : Counts) (room : Nat) (stream : WordStream) :
    ∃ rest,
      (∃ outline : (c : Collection) → Outline c,
        ∀ (ids : Nat → Identifier) (now : Instant), (now.daysBefore 1095).inCalendar = true →
          ∃ d, (draw room counts now.timeline ids).readFrom stream = (.ok d, rest) ∧
            ∀ c, d.Follows now (outline c)) ∨
      ((∃ c : Collection, c.TakesRoom ∧ room < counts.get c) ∧
        ∀ (ids : Nat → Identifier) (now : Instant), (now.daysBefore 1095).inCalendar = true →
          (draw room counts now.timeline ids).readFrom stream = (.error .memory, rest)) := by
  have hgives : (drawPlaces room counts).Gives _ _ := drawPlaces_gives
  replace hgives := hgives stream
  rcases hrun : (drawPlaces room counts).readFrom stream with ⟨e | d, rest⟩
  · rw [hrun] at hgives
    obtain ⟨rfl, hroom⟩ := hgives
    refine ⟨rest, .inr ⟨hroom, fun ids now hnow => ?_⟩⟩
    rw [draw_eq_drawPlaces hnow, Draw.readFrom_map, hrun]
    rfl
  · rw [hrun] at hgives
    refine ⟨rest, .inl ⟨d.outline, fun ids now hnow => ?_⟩⟩
    refine ⟨d.rename (.uniform ids now.daysBefore), ?_, rename_follows hgives ids now⟩
    rw [draw_eq_drawPlaces hnow, Draw.readFrom_map, hrun]
    rfl

/-- The standard numbers, made by two programs on different days. -/
theorem draw_outline_standard :
    ∃ rest, ∃ outline : (c : Collection) → Outline c, ∃ d₁ d₂,
      (draw memoryLimit .standard (Instant.ofSeconds 1700000000).timeline
        (Identifier.Source.mk 7 16777000 fun _ => 1700000000).identifier).readFrom (.ofSeed 42)
          = (.ok d₁, rest) ∧
      (draw memoryLimit .standard (Instant.ofSeconds 951782400).timeline
        (Identifier.Source.mk 1 0 fun _ => 951782400).identifier).readFrom (.ofSeed 42)
          = (.ok d₂, rest) ∧
      ∀ c, d₁.Follows (.ofSeconds 1700000000) (outline c) ∧
        d₂.Follows (.ofSeconds 951782400) (outline c) := by
  obtain ⟨rest, ⟨outline, h⟩ | ⟨⟨c, -, hroom⟩, -⟩⟩ :=
    draw_outline .standard memoryLimit (.ofSeed 42)
  · obtain ⟨d₁, hrun₁, h₁⟩ := h (Identifier.Source.mk 7 16777000 fun _ => 1700000000).identifier
      (.ofSeconds 1700000000) (by decide)
    obtain ⟨d₂, hrun₂, h₂⟩ := h (Identifier.Source.mk 1 0 fun _ => 951782400).identifier
      (.ofSeconds 951782400) (by decide)
    exact ⟨rest, outline, d₁, d₂, hrun₁, hrun₂, fun c => ⟨h₁ c, h₂ c⟩⟩
  · exact absurd hroom (by cases c <;> decide)

end Dataset

end Academy
