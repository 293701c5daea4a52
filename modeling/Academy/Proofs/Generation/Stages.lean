import Academy.Proofs.Generation.Dataset

/-!
# One collection after the other

A dataset is made in seven steps, and each step adds the records of one
collection to what there is. What is said of the whole is said here of any
list of collections, by induction on the list: the steps can be cut at any
place, and what the earlier ones have made is not touched by the later
ones.
-/

namespace Academy.Dataset

variable {Ref Date : Type}

/-- The dataset with other records in one collection. -/
def withRecords (d : Dataset Ref Date) :
    (c : Collection) → List (Record Ref Date c) → Dataset Ref Date
  | .categories => fun rs => { d with categories := rs }
  | .instructors => fun rs => { d with instructors := rs }
  | .students => fun rs => { d with students := rs }
  | .courses => fun rs => { d with courses := rs }
  | .enrollments => fun rs => { d with enrollments := rs }
  | .reviews => fun rs => { d with reviews := rs }
  | .payments => fun rs => { d with payments := rs }

theorem records_withRecords_of_ne {d : Dataset Ref Date} {c c' : Collection}
    {rs : List (Record Ref Date c)} (h : c' ≠ c) :
    (d.withRecords c rs).records c' = d.records c' := by
  cases c <;> cases c' <;> first | rfl | exact absurd rfl h

@[simp] theorem records_withRecords_self {d : Dataset Ref Date} {c : Collection}
    {rs : List (Record Ref Date c)} : (d.withRecords c rs).records c = rs := by
  cases c <;> rfl

/-- **The records of some collections**, one after the other, added to a dataset
in which so many records come before them. -/
def drawOnto (room : Nat) (counts : Counts) (timeline : Timeline Date) (ids : Nat → Ref) :
    List Collection → (place : Nat) → Dataset Ref Date → Draw (Dataset Ref Date)
  | [], _, d => pure d
  | c :: cs, place, d => do
    let rs ← drawRecords room counts timeline (fun n => ids (place + n)) d c
    drawOnto room counts timeline ids cs (place + rs.length) (d.withRecords c rs)

variable {room : Nat} {counts : Counts} {timeline : Timeline Date} {ids : Nat → Ref}

/-- **A dataset is made by making all collections** on top of an empty one. -/
theorem draw_eq_drawOnto :
    draw room counts timeline ids = drawOnto room counts timeline ids Collection.all 0 {} := by
  unfold draw Collection.all
  simp only [drawOnto, Nat.zero_add]
  rfl

/-- Other collections are left as they are. -/
theorem drawOnto_leaves {cs : List Collection} {place : Nat} {d : Dataset Ref Date}
    {c : Collection} (hc : c ∉ cs) :
    (drawOnto room counts timeline ids cs place d).Gives (fun _ => True)
      (fun d' => d'.records c = d.records c) := by
  induction cs generalizing place d with
  | nil => exact Draw.gives_pure rfl
  | cons c' cs ih =>
    rw [List.mem_cons, not_or] at hc
    obtain ⟨hne, hcs⟩ := hc
    refine (Draw.gives_any _).bind fun rs _ => ?_
    exact (ih hcs).imp fun d' h => h.trans (records_withRecords_of_ne hne)

end Academy.Dataset
