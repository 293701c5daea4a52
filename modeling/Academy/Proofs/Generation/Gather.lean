import Academy.Generation.Gather
import Academy.Proofs.Random.Draws

/-!
# What is gathered

A collection comes of tries, and how many records it has is decided by
where the tries end. As long as tries make records, one record follows the
other, and the record at a place is the one that the try at this place has
made. So all that has to be known of a loop is how many tries make
records, what each of them makes, and that the next one ends the loop – or
that there is no next one.
-/

namespace Academy

variable {α : Type}

theorem Timeline.draw_gives {Date : Type} (timeline : Timeline Date) {most : Nat}
    {E : DrawError → Prop} (hE : timeline.reach < most → E .beforeCalendar) :
    (timeline.draw most).Gives E
      (fun date => ∃ days ≤ most, days ≤ timeline.reach ∧ date = timeline.daysBefore days) :=
  (Draw.daysBack_gives hE).bind fun days h => Draw.gives_pure ⟨days, h.1, h.2, rfl⟩

/-- **A list whose items are known by their places**, of which the first is
`first`. -/
def PlacedFrom (first : Nat) (P : Nat → α → Prop) (as : List α) : Prop :=
  ∀ n a, as[n]? = some a → P (first + n) a

namespace PlacedFrom

variable {first : Nat} {P Q : Nat → α → Prop} {as : List α}

theorem nil : PlacedFrom first P ([] : List α) :=
  fun _ _ h => nomatch h

theorem cons {a : α} (ha : P first a) (h : PlacedFrom (first + 1) P as) :
    PlacedFrom first P (a :: as) := by
  intro n b hb
  cases n with
  | zero =>
    rw [List.getElem?_cons_zero, Option.some_inj] at hb
    exact hb ▸ ha
  | succ n =>
    rw [List.getElem?_cons_succ] at hb
    have hrest := h n b hb
    rwa [Nat.add_assoc, Nat.add_comm 1 n] at hrest

theorem append {bs : List α} (has : PlacedFrom first P as)
    (hbs : PlacedFrom (first + as.length) P bs) : PlacedFrom first P (as ++ bs) := by
  intro n a hn
  rcases Nat.lt_or_ge n as.length with hlt | hge
  · rw [List.getElem?_append_left hlt] at hn
    exact has n a hn
  · rw [List.getElem?_append_right hge] at hn
    have hb := hbs (n - as.length) a hn
    rwa [Nat.add_assoc, Nat.add_sub_cancel' hge] at hb

theorem imp (h : PlacedFrom first P as) (hPQ : ∀ n a, P n a → Q n a) :
    PlacedFrom first Q as :=
  fun n a hn => hPQ _ a (h n a hn)

/-- What holds of an item at any place holds of all items. -/
theorem forall_mem (h : PlacedFrom first P as) {R : α → Prop} (hPR : ∀ n a, P n a → R a) :
    ∀ a ∈ as, R a := by
  intro a ha
  obtain ⟨n, hn⟩ := List.mem_iff_getElem?.mp ha
  exact hPR _ a (h n a hn)

/-- Items that are known by their places have the keys of these places. -/
theorem map_eq {β : Type} {key : α → β} {keys : Nat → β}
    (h : PlacedFrom first (fun n a => key a = keys n) as) :
    as.map key = (List.range' first as.length).map keys := by
  refine List.ext_getElem? fun n => ?_
  rw [List.getElem?_map, List.getElem?_map]
  rcases Nat.lt_or_ge n as.length with hlt | hge
  · have hn : as[n]? = some as[n] := List.getElem?_eq_getElem hlt
    rw [hn, List.getElem?_range' hlt, Option.map_some, Option.map_some, h n _ hn, Nat.one_mul]
  · rw [List.getElem?_eq_none hge, List.getElem?_eq_none (by rw [List.length_range']; exact hge)]
    rfl

end PlacedFrom

namespace Draw

variable {E : DrawError → Prop}

/-- Room is taken, or there is none. -/
theorem reserve_gives {room count : Nat} (hE : room < count → E .memory) :
    (reserve room count).Gives E (fun _ => True) := by
  unfold reserve
  split
  · exact gives_pure trivial
  · next h => exact gives_throw (hE (Nat.lt_of_not_le h))

/-- **What is gathered** by tries of which `made` make a record and the next
one, if there is one, ends the whole. -/
theorem gather_gives {attempt : Nat → Draw (Attempt α)} {P : Nat → α → Prop} {made tries : Nat}
    (htries : made ≤ tries) (first : Nat)
    (hmade : ∀ n, first ≤ n → n < first + made →
      (attempt n).Gives E (fun outcome => ∃ a, outcome = .made a ∧ P n a))
    (hended : made < tries → (attempt (first + made)).Gives E (· = .ended)) :
    (gather attempt tries first).Gives E
      (fun as => as.length = made ∧ PlacedFrom first P as) := by
  induction tries generalizing made first with
  | zero =>
    obtain rfl := Nat.le_zero.mp htries
    exact gives_pure ⟨rfl, .nil⟩
  | succ tries ih =>
    cases made with
    | zero =>
      refine (hended (Nat.succ_pos tries)).bind fun outcome houtcome => ?_
      subst houtcome
      exact gives_pure ⟨rfl, .nil⟩
    | succ made =>
      refine (hmade first (Nat.le_refl _) (by omega)).bind fun outcome houtcome => ?_
      obtain ⟨a, rfl, ha⟩ := houtcome
      have hrest := ih (Nat.le_of_succ_le_succ htries) (first + 1)
        (fun n h₁ h₂ => hmade n (by omega) (by omega))
        (fun h => Nat.add_right_comm first 1 made ▸ hended (Nat.succ_lt_succ h))
      exact hrest.bind fun as has => gives_pure ⟨congrArg Nat.succ has.1, has.2.cons ha⟩

/-- **What is gathered where every try makes a record.** -/
theorem gather_gives_all {attempt : Nat → Draw (Attempt α)} {P : Nat → α → Prop}
    {tries first : Nat}
    (hmade : ∀ n, first ≤ n → n < first + tries →
      (attempt n).Gives E (fun outcome => ∃ a, outcome = .made a ∧ P n a)) :
    (gather attempt tries first).Gives E
      (fun as => as.length = tries ∧ PlacedFrom first P as) :=
  gather_gives (Nat.le_refl tries) first hmade (fun h => absurd h (Nat.lt_irrefl tries))

/-- **Nothing is gathered where every try ends the whole.** -/
theorem gather_gives_nil {attempt : Nat → Draw (Attempt α)} {tries first : Nat}
    (hended : ∀ n, (attempt n).Gives E (· = .ended)) :
    (gather attempt tries first).Gives E (· = []) :=
  (gather_gives (P := fun _ _ => True) (Nat.zero_le tries) first
    (fun _ h₁ h₂ => absurd h₂ (Nat.not_lt.mpr h₁)) fun _ => hended _).imp
      fun _ h => List.eq_nil_of_length_eq_zero h.1

/-- **What is gathered where tries can be skipped**: at most as many records as
there are tries. -/
theorem gather_gives_some {attempt : Nat → Draw (Attempt α)} {P : α → Prop}
    (h : ∀ n, (attempt n).Gives E (fun outcome => ∀ a, outcome = .made a → P a))
    (tries first : Nat) :
    (gather attempt tries first).Gives E (fun as => as.length ≤ tries ∧ ∀ a ∈ as, P a) := by
  induction tries generalizing first with
  | zero => exact gives_pure ⟨Nat.le_refl 0, nofun⟩
  | succ tries ih =>
    refine (h first).bind fun outcome houtcome => ?_
    cases outcome with
    | made a =>
      exact (ih (first + 1)).bind fun as has => gives_pure
        ⟨Nat.succ_le_succ has.1, List.forall_mem_cons.mpr ⟨houtcome a rfl, has.2⟩⟩
    | skipped => exact (ih first).imp fun as has => ⟨Nat.le_succ_of_le has.1, has.2⟩
    | ended => exact gives_pure ⟨Nat.zero_le _, nofun⟩

/-- A draw that becomes a record. -/
theorem Gives.made {draw : Draw α} {P : α → Prop} (h : draw.Gives E P) :
    (Attempt.made <$> draw).Gives E (fun outcome => ∃ a, outcome = .made a ∧ P a) :=
  h.map fun a ha => ⟨a, rfl, ha⟩

end Draw

end Academy
