import Academy.Proofs.Generation.Failing
import Academy.Proofs.Generation.Outline

/-!
# More records come after the others

How many records there are to be decides where a loop ends, and nothing
else: the tries that are made anyway do not know how many more there will
be. So whoever asks for more gets what there was before, and then more.
That the courses keep to it takes a closer look, since they come of two
loops, and the second begins where the first has ended. The first one
ends early only where no templates are left, and then it ends at the same
place whatever was asked for.

Records of one collection know nothing of how many there are to be in
later ones either. Two datasets for which the same is asked of the first
collections have these in common.

The names of the records themselves are left out of this. What they are
depends on how many records there are in the collections before.
-/

namespace Academy

variable {α β : Type} {Ref Date : Type}

namespace Draw

/-! ## Lists that are drawn longer -/

/-- **Tries beyond those that are made anyway** add records at the end. And
where no try is skipped, a loop that has stopped before all its tries were
made stops at the same place when it is given more. -/
theorem readFrom_gather_of_le {attempt : Nat → Draw (Attempt α)} {tries tries' : Nat}
    (h : tries ≤ tries') {index : Nat} {stream rest' : WordStream} {many : List α}
    (hmany : readFrom (gather attempt tries' index) stream = (.ok many, rest')) :
    ∃ few rest, readFrom (gather attempt tries index) stream = (.ok few, rest) ∧ few <+: many ∧
      ((∀ index, (attempt index).Gives (fun _ => True) (· ≠ .skipped)) →
        few.length < tries → few = many ∧ rest = rest') := by
  induction tries generalizing tries' index stream many with
  | zero => exact ⟨[], stream, rfl, List.nil_prefix, fun _ hlt => absurd hlt (Nat.not_lt_zero _)⟩
  | succ tries ih =>
    obtain ⟨tries', rfl⟩ := Nat.exists_eq_add_of_le' (Nat.zero_lt_of_lt h)
    replace h := Nat.le_of_succ_le_succ h
    obtain ⟨outcome, mid, houtcome, hmany⟩ := readFrom_bind_eq_ok.mp hmany
    unfold gather
    rw [readFrom_bind, houtcome]
    cases outcome with
    | made a =>
      obtain ⟨later, rest'', hlater, hmade⟩ := readFrom_bind_eq_ok.mp hmany
      obtain ⟨rfl, rfl⟩ : a :: later = many ∧ rest'' = rest' := by cases hmade; exact ⟨rfl, rfl⟩
      obtain ⟨few, rest, hfew, hprefix, hsame⟩ := ih h hlater
      refine ⟨a :: few, rest, readFrom_bind_eq_ok.mpr ⟨few, rest, hfew, rfl⟩,
        List.cons_prefix_cons.mpr ⟨rfl, hprefix⟩, fun hnoskip hlt => ?_⟩
      obtain ⟨rfl, rfl⟩ := hsame hnoskip (Nat.lt_of_succ_lt_succ hlt)
      exact ⟨rfl, rfl⟩
    | skipped =>
      obtain ⟨few, rest, hfew, hprefix, -⟩ := ih h hmany
      refine ⟨few, rest, hfew, hprefix, fun hnoskip => ?_⟩
      have hunskipped := hnoskip index stream
      rw [houtcome] at hunskipped
      exact absurd rfl hunskipped
    | ended =>
      cases hmany
      exact ⟨[], _, rfl, List.nil_prefix, fun _ _ => ⟨rfl, rfl⟩⟩

/-- **A draw of the beginning of what another draws**, wherever the other one
draws anything. -/
def Begins (few many : Draw (List α)) : Prop :=
  ∀ stream as rest, readFrom many stream = (.ok as, rest) →
    ∃ bs rest', readFrom few stream = (.ok bs, rest') ∧ bs <+: as

theorem gather_begins {attempt : Nat → Draw (Attempt α)} {tries tries' : Nat}
    (h : tries ≤ tries') (index : Nat) :
    (gather attempt tries index).Begins (gather attempt tries' index) := by
  intro stream as rest has
  obtain ⟨bs, rest', hbs, hprefix, -⟩ := readFrom_gather_of_le h has
  exact ⟨bs, rest', hbs, hprefix⟩

/-- Room for more is room for fewer. -/
theorem Begins.reserve {few many : Draw (List α)} (h : few.Begins many) {count count' : Nat}
    (hcount : count ≤ count') (room : Nat) :
    (reserve room count >>= fun _ => few).Begins (reserve room count' >>= fun _ => many) := by
  intro stream as rest has
  unfold Draw.reserve at has ⊢
  by_cases hroom : count' ≤ room
  · rw [if_pos hroom] at has
    rw [if_pos (hcount.trans hroom)]
    exact h stream as rest has
  · rw [if_neg hroom] at has
    exact nomatch has

end Draw

/-! ## Collections that grow -/

theorem Category.gather_prefix {count count' : Nat} (h : count ≤ count') (ids : Nat → Ref) :
    gather ids count <+: gather ids count' := by
  obtain ⟨rest, hrest⟩ := List.take_prefix_take_left (l := Catalog.categories) h
  unfold gather
  rw [← hrest, List.mapIdx_append]
  exact List.prefix_append _ _

namespace Course

variable {timeline : Timeline Date}

theorem established_gives_unskipped (instructors : List (Instructor Ref)) (category : Category Ref)
    (template : CourseTemplate) (id : Ref) :
    (established timeline instructors category template id).Gives (fun _ => True)
      (· ≠ .skipped) := by
  refine (Draw.gives_any _).bind fun instructor _ => ?_
  cases instructor with
  | none => exact Draw.gives_pure nofun
  | some instructor => exact (Draw.gives_any _).map fun _ _ => nofun

/-- **More courses begin with fewer courses.** Either the templates are not
exhausted by the fewer courses, and then their second loop is not run; or
the first loops are the same, and the second ones begin alike. -/
theorem gather_begins {count count' : Nat} (h : count ≤ count') (ids : Nat → Ref)
    (categories : List (Category Ref)) (instructors : List (Instructor Ref)) :
    (gather timeline ids categories instructors count).Begins
      (gather timeline ids categories instructors count') := by
  intro stream as rest₀ has
  obtain ⟨first', mid', hfirst', hsecond'⟩ := Draw.readFrom_bind_eq_ok.mp has
  obtain ⟨more', last', hmore', hwhole⟩ := Draw.readFrom_bind_eq_ok.mp hsecond'
  obtain rfl : first' ++ more' = as := by cases hwhole; rfl
  obtain ⟨first, mid, hfirst, hprefix, hsame⟩ := Draw.readFrom_gather_of_le h hfirst'
  by_cases hlt : first.length < count
  · have hunskipped : first = first' ∧ mid = mid' := by
      refine hsame (fun place => ?_) hlt
      split
      · exact established_gives_unskipped instructors _ _ _
      · exact Draw.gives_pure nofun
    obtain ⟨rfl, rfl⟩ := hunskipped
    obtain ⟨more, last, hmore, hprefix, -⟩ :=
      Draw.readFrom_gather_of_le (Nat.sub_le_sub_right h first.length) hmore'
    refine ⟨first ++ more, last, ?_, (List.prefix_append_right_inj first).mpr hprefix⟩
    exact Draw.readFrom_bind_eq_ok.mpr ⟨first, mid, hfirst,
      Draw.readFrom_bind_eq_ok.mpr ⟨more, last, hmore, rfl⟩⟩
  · refine ⟨first ++ [], mid, ?_, ?_⟩
    · refine Draw.readFrom_bind_eq_ok.mpr ⟨first, mid, hfirst, ?_⟩
      rw [Nat.sub_eq_zero_of_le (Nat.le_of_not_lt hlt)]
      rfl
    · rw [List.append_nil]
      exact hprefix.trans (List.prefix_append first' more')

end Course

namespace Dataset

variable {room : Nat} {counts counts' : Counts} {timeline : Timeline Date}

/-- **More records of a collection begin with fewer of them.** -/
theorem drawRecords_begins {c : Collection} (h : counts.get c ≤ counts'.get c) (ids : Nat → Ref)
    (d : Dataset Ref Date) :
    (drawRecords room counts timeline ids d c).Begins
      (drawRecords room counts' timeline ids d c) := by
  cases c with
  | categories =>
    rintro stream as rest ⟨⟩
    exact ⟨_, _, rfl, Category.gather_prefix h ids⟩
  | instructors => exact Draw.gather_begins h 0
  | students => exact (Draw.gather_begins h 0).reserve h room
  | courses => exact (Course.gather_begins h ids d.categories d.instructors).reserve h room
  | enrollments => exact (Draw.gather_begins h 0).reserve h room
  | reviews => exact (Draw.gather_begins h 0).reserve h room
  | payments => exact (Draw.gather_begins h 0).reserve h room

theorem drawRecords_alike (ids : Nat → Ref) (d : Dataset Ref Date) (c : Collection) (r : Ref) :
    drawRecords room counts timeline (fun _ => r) d c
      = List.map (Record.rename (.alike r) c) <$> drawRecords room counts timeline ids d c := by
  have hrename :
      drawRecords room counts timeline (fun _ => r) (d.rename (Renaming.alike r).others) c
        = List.map (Record.rename (.alike r) c) <$> drawRecords room counts timeline ids d c :=
    drawRecords_rename (Renaming.carries_unchanged (ρ := .alike r) rfl timeline) (fun _ => rfl) d c
  rwa [show (Renaming.alike r : Renaming Ref Date Ref Date).others = .unchanged from rfl,
    rename_unchanged] at hrename

/-- What the records themselves are known by does not matter for that. -/
theorem drawRecords_grows {c : Collection} (h : counts.get c ≤ counts'.get c)
    (ids ids' : Nat → Ref) (d : Dataset Ref Date) {stream rest : WordStream}
    {many : List (Record Ref Date c)}
    (hmany : (drawRecords room counts' timeline ids' d c).readFrom stream = (.ok many, rest)) :
    ∃ few rest', (drawRecords room counts timeline ids d c).readFrom stream = (.ok few, rest') ∧
      ∀ r, few.map (Record.rename (.alike r) c) <+: many.map (Record.rename (.alike r) c) := by
  have hfew (r : Ref) : ∃ few rest',
      (drawRecords room counts timeline ids d c).readFrom stream = (.ok few, rest') ∧
        few.map (Record.rename (.alike r) c) <+: many.map (Record.rename (.alike r) c) := by
    have halike : (drawRecords room counts' timeline (fun _ => r) d c).readFrom stream
        = (.ok (many.map (Record.rename (.alike r) c)), rest) := by
      rw [drawRecords_alike ids']
      exact Draw.readFrom_map_eq_ok.mpr ⟨many, hmany, rfl⟩
    obtain ⟨few', rest', hfew', hprefix⟩ := drawRecords_begins h (fun _ => r) d stream _ _ halike
    rw [drawRecords_alike ids] at hfew'
    obtain ⟨few, hfew, rfl⟩ := Draw.readFrom_map_eq_ok.mp hfew'
    exact ⟨few, rest', hfew, hprefix⟩
  -- the fewer records are the same for every name
  obtain ⟨few, rest', hrun, -⟩ := hfew (ids 0)
  refine ⟨few, rest', hrun, fun r => ?_⟩
  obtain ⟨few', _, hrun', hprefix⟩ := hfew r
  rw [hrun] at hrun'
  cases hrun'
  exact hprefix

/-! ## Collections in common -/

theorem drawRecords_congr {c : Collection} (h : counts.get c = counts'.get c) (ids : Nat → Ref)
    (d : Dataset Ref Date) :
    drawRecords room counts timeline ids d c = drawRecords room counts' timeline ids d c := by
  cases c with
  | categories => exact congrArg (fun count => pure (Category.gather ids count)) h
  | instructors => exact congrArg (Instructor.gather ids) h
  | students =>
    exact congrArg (fun count => Draw.reserve room count >>= fun _ =>
      Student.gather timeline ids count) h
  | courses =>
    exact congrArg (fun count => Draw.reserve room count >>= fun _ =>
      Course.gather timeline ids d.categories d.instructors count) h
  | enrollments =>
    exact congrArg (fun count => Draw.reserve room count >>= fun _ =>
      Enrollment.gather timeline ids d.students d.courses count) h
  | reviews =>
    exact congrArg (fun count => Draw.reserve room count >>= fun _ =>
      Review.gather timeline ids d.students d.courses count) h
  | payments =>
    exact congrArg (fun count => Draw.reserve room count >>= fun _ =>
      Payment.gather timeline ids d.students d.courses count) h

/-- **The first collections do not depend on what is asked of the others.** -/
theorem drawOnto_agree {ids : Nat → Ref} {cs : List Collection} (hcs : cs.Nodup) {n : Nat}
    (hcounts : ∀ c ∈ cs.take n, counts.get c = counts'.get c) {place : Nat}
    {d d₁ d₂ : Dataset Ref Date} {stream rest₁ rest₂ : WordStream}
    (h₁ : (drawOnto room counts timeline ids cs place d).readFrom stream = (.ok d₁, rest₁))
    (h₂ : (drawOnto room counts' timeline ids cs place d).readFrom stream = (.ok d₂, rest₂)) :
    ∀ c ∈ cs.take n, d₁.records c = d₂.records c := by
  induction cs generalizing n place d stream with
  | nil => exact fun c hc => absurd (List.take_nil ▸ hc) List.not_mem_nil
  | cons c cs ih =>
    cases n with
    | zero => exact fun c hc => absurd hc List.not_mem_nil
    | succ n =>
      rw [List.take_succ_cons] at hcounts ⊢
      obtain ⟨hc, hcs⟩ := List.nodup_cons.mp hcs
      obtain ⟨rs, mid, hrs, hlater₁⟩ := Draw.readFrom_bind_eq_ok.mp h₁
      obtain ⟨rs', mid', hrs', hlater₂⟩ := Draw.readFrom_bind_eq_ok.mp h₂
      rw [← drawRecords_congr (hcounts c List.mem_cons_self), hrs] at hrs'
      cases hrs'
      intro c' hc'
      rcases List.mem_cons.mp hc' with rfl | hc'
      · exact ((drawOnto_leaves hc).of_readFrom hlater₁).trans
          ((drawOnto_leaves hc).of_readFrom hlater₂).symm
      · exact ih hcs (fun c'' hc'' => hcounts c'' (List.mem_cons_of_mem c hc'')) hlater₁ hlater₂
          c' hc'

/-- Records refer to collections before their own. -/
theorem mem_take_of_references {c : Collection} {r : Record Ref Date c} {p : Collection × Ref}
    (hp : p ∈ Record.references c r) {n : Nat} (hc : c ∈ Collection.all.take n) :
    p.1 ∈ Collection.all.take n := by
  have hall (c : Collection) : c ∈ Collection.all := by cases c <;> decide
  rw [List.mem_take_iff_idxOf_lt (hall _)] at hc ⊢
  refine Nat.lt_trans ?_ hc
  cases c with
  | categories => exact nomatch hp
  | instructors => exact nomatch hp
  | students => exact nomatch hp
  | _ =>
    rcases List.mem_pair.mp hp with rfl | rfl
    · dsimp only
      decide
    · dsimp only
      decide

theorem outline_congr [DecidableEq Ref] {d₁ d₂ : Dataset Ref Nat} {c : Collection}
    (hrecords : d₁.records c = d₂.records c)
    (htargets : ∀ r ∈ d₁.records c, ∀ p ∈ Record.references c r,
      d₁.records p.1 = d₂.records p.1) : d₁.outline c = d₂.outline c := by
  unfold outline
  rw [← hrecords]
  refine congrArg _ (List.map_congr_left fun r hr => List.map_congr_left fun p hp => ?_)
  dsimp only
  unfold positionOf
  rw [htargets r hr p hp]

/-- **Two datasets for which the same is asked of the first collections** follow
the same outlines there. -/
theorem drawPlaces_agree {n : Nat}
    (hcounts : ∀ c ∈ Collection.all.take n, counts.get c = counts'.get c)
    {d₁ d₂ : Dataset Nat Nat} {stream rest₁ rest₂ : WordStream}
    (h₁ : (drawPlaces room counts).readFrom stream = (.ok d₁, rest₁))
    (h₂ : (drawPlaces room counts').readFrom stream = (.ok d₂, rest₂)) :
    ∀ c ∈ Collection.all.take n, d₁.outline c = d₂.outline c := by
  unfold drawPlaces at h₁ h₂
  rw [draw_eq_drawOnto] at h₁ h₂
  have hagree := drawOnto_agree (by decide) hcounts h₁ h₂
  exact fun c hc => outline_congr (hagree c hc) fun r _ p hp =>
    hagree p.1 (mem_take_of_references hp hc)

/-! ## What more is asked for comes at the end -/

/-- **Asking for more only adds to what is made**, from any state of the words.
Take a collection, whatever its records are made from, and ask for no fewer
records: those that were made before are made again, up to what they are known
by themselves, and others come after them. All fails only where a date lies
before the calendar or there is no room for the more records. And take two
datasets for which the same is asked of the first `n` collections. Whatever
is asked of the others, the two have these collections in common, up to
identifiers and the present; each of them can fail only for want of room. -/
theorem draw_grows (room : Nat) (counts counts' : Counts) (stream : WordStream) :
    (∀ (c : Collection) (timeline : Timeline Date) (ids ids' : Nat → Ref) (d : Dataset Ref Date),
      counts.get c ≤ counts'.get c →
        (∃ few many,
          ((drawRecords room counts timeline ids d c).readFrom stream).1 = .ok few ∧
          ((drawRecords room counts' timeline ids' d c).readFrom stream).1 = .ok many ∧
          ∀ r, few.map (Record.rename (.alike r) c) <+: many.map (Record.rename (.alike r) c)) ∨
        ∃ e, ((drawRecords room counts' timeline ids' d c).readFrom stream).1 = .error e ∧
          (e = .beforeCalendar ∧ timeline.reach < c.daysBack ∨
            e = .memory ∧ c.TakesRoom ∧ room < counts'.get c)) ∧
    ∀ (n : Nat) (ids ids' : Nat → Identifier) (now now' : Instant),
      (∀ c ∈ Collection.all.take n, counts.get c = counts'.get c) →
      (now.daysBefore 1095).inCalendar = true → (now'.daysBefore 1095).inCalendar = true →
        (∃ d d',
          ((draw room counts now.timeline ids).readFrom stream).1 = .ok d ∧
          ((draw room counts' now'.timeline ids').readFrom stream).1 = .ok d' ∧
          ∀ c ∈ Collection.all.take n, ∃ outline : Outline c,
            d.Follows now outline ∧ d'.Follows now' outline) ∨
        (((draw room counts now.timeline ids).readFrom stream).1 = .error .memory ∧
          ∃ c : Collection, c.TakesRoom ∧ room < counts.get c) ∨
        (((draw room counts' now'.timeline ids').readFrom stream).1 = .error .memory ∧
          ∃ c : Collection, c.TakesRoom ∧ room < counts'.get c) := by
  constructor
  · intro c timeline ids ids' d h
    have hfails : (drawRecords room counts' timeline ids' d c).Gives _ _ :=
      drawRecords_failsOnly (E := fun e => e = .beforeCalendar ∧ timeline.reach < c.daysBack ∨
        e = .memory ∧ c.TakesRoom ∧ room < counts'.get c) c (fun h => .inl ⟨rfl, h⟩)
        fun hc hroom => .inr ⟨rfl, hc, hroom⟩
    replace hfails := hfails stream
    rcases hrun : (drawRecords room counts' timeline ids' d c).readFrom stream with ⟨e | many, rest⟩
    · rw [hrun] at hfails
      exact .inr ⟨e, rfl, hfails⟩
    · obtain ⟨few, rest', hfew, hprefix⟩ := drawRecords_grows h ids ids' d hrun
      exact .inl ⟨few, many, congrArg Prod.fst hfew, rfl, hprefix⟩
  · intro n ids ids' now now' hcounts hnow hnow'
    rw [draw_eq_drawPlaces hnow, draw_eq_drawPlaces hnow', Draw.readFrom_map, Draw.readFrom_map]
    have hgives : (drawPlaces room counts).Gives _ _ := drawPlaces_gives
    have hgives' : (drawPlaces room counts').Gives _ _ := drawPlaces_gives
    replace hgives := hgives stream
    replace hgives' := hgives' stream
    rcases hrun : (drawPlaces room counts).readFrom stream with ⟨e | d, rest⟩
    · rw [hrun] at hgives
      obtain ⟨rfl, hroom⟩ := hgives
      exact .inr (.inl ⟨rfl, hroom⟩)
    rcases hrun' : (drawPlaces room counts').readFrom stream with ⟨e | d', rest'⟩
    · rw [hrun'] at hgives'
      obtain ⟨rfl, hroom⟩ := hgives'
      exact .inr (.inr ⟨rfl, hroom⟩)
    rw [hrun] at hgives
    rw [hrun'] at hgives'
    refine .inl ⟨_, _, rfl, rfl, fun c hc => ⟨d.outline c, rename_follows hgives ids now c, ?_⟩⟩
    rw [drawPlaces_agree hcounts hrun hrun' c hc]
    exact rename_follows hgives' ids' now' c

/-- One student and one course. -/
def ada : Dataset Nat Nat where
  students := [⟨0, "Ada", "ada@example.org", "UK", 0, .active, 28⟩]
  courses := [⟨1, "Logic", "", 0, 0, 10, 1, 0, [], 5, 1, .beginner⟩]

/-- More enrollments of one student in one course, and more enrollments in a
whole dataset. -/
theorem draw_grows_enrollments :
    (∃ few many,
      ((drawRecords memoryLimit .standard .days (fun n => n) ada .enrollments).readFrom
        (.ofSeed 42)).1 = .ok few ∧
      ((drawRecords memoryLimit { Counts.standard with enrollments := 2000 } .days
        (fun n => n + 100) ada .enrollments).readFrom (.ofSeed 42)).1 = .ok many ∧
      ∀ r, few.map (Record.rename (.alike r) .enrollments)
        <+: many.map (Record.rename (.alike r) .enrollments)) ∧
    ∃ d₁ d₂,
      ((draw memoryLimit .standard (Instant.ofSeconds 1700000000).timeline
        (Identifier.Source.mk 7 16777000 fun _ => 1700000000).identifier).readFrom
        (.ofSeed 42)).1 = .ok d₁ ∧
      ((draw memoryLimit { Counts.standard with enrollments := 2000 }
        (Instant.ofSeconds 951782400).timeline
        (Identifier.Source.mk 1 0 fun _ => 951782400).identifier).readFrom
        (.ofSeed 42)).1 = .ok d₂ ∧
      ∀ c ∈ [Collection.categories, .instructors, .students, .courses],
        ∃ outline : Outline c, d₁.Follows (.ofSeconds 1700000000) outline ∧
          d₂.Follows (.ofSeconds 951782400) outline := by
  obtain ⟨hstage, hwhole⟩ := @draw_grows Nat Nat memoryLimit .standard
    { Counts.standard with enrollments := 2000 } (.ofSeed 42)
  constructor
  · rcases hstage .enrollments .days (fun n => n) (fun n => n + 100) ada (by decide) with
      hgrows | ⟨e, -, ⟨-, hreach⟩ | ⟨-, -, hroom⟩⟩
    · exact hgrows
    · exact absurd hreach (by decide)
    · exact absurd hroom (by decide)
  · rcases hwhole 4 (Identifier.Source.mk 7 16777000 fun _ => 1700000000).identifier
        (Identifier.Source.mk 1 0 fun _ => 951782400).identifier (.ofSeconds 1700000000)
        (.ofSeconds 951782400) (by decide) (by decide) (by decide) with
      hagree | ⟨-, c, -, hroom⟩ | ⟨-, c, -, hroom⟩
    · exact hagree
    · exact absurd hroom (by cases c <;> decide)
    · exact absurd hroom (by cases c <;> decide)

end Dataset

end Academy
