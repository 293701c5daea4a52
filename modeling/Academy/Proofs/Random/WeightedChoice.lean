import Academy.Proofs.Random.UniformRange

/-!
# An outcome without weight is not drawn

The number that is drawn lies below the rounded total of the weights, and
the outcome is the one in whose stretch of the running sums it falls. Two
things have to be seen for this to find an outcome of some weight. The
number has to be *below* the total and not only at most as large, because
the last stretch would be left otherwise: this is what the scale is
lowered for, and lowering it ends because a scale of zero is low enough.
And a stretch that a number falls into has to have been made by a weight
above zero: the sums never decrease, so the stretches do not overlap, and
one that begins and ends with the same sum holds no number, be its weight
zero or one that rounding has swallowed.

What is refused is told apart completely: no weights, a weight that is
none, a total of zero, and a total that is infinite.
-/

namespace Academy

open Binary64

namespace WeightedChoice

variable {α : Type}

/-! ## Running sums -/

/-- The weights added to a sum, one after the other. -/
def addUp (sum : Binary64) (pairs : List (α × Binary64)) : Binary64 :=
  pairs.foldl (fun s p => s + p.2) sum

/-- **The running total of weights**, from the first one on. -/
def runningTotal : List (α × Binary64) → Binary64
  | [] => 0
  | (_, w) :: pairs => addUp w pairs

/-- **How many partial sums a number has passed.** -/
def place (choice : WeightedChoice α) (x : Binary64) : Nat :=
  (choice.further.filter fun entry => entry.2.le x).length

theorem outcomeAt_of_place {choice : WeightedChoice α} {x : Binary64} {a : α}
    (h : choice.outcomes[choice.place x]? = some a) : choice.outcomeAt x = a :=
  congrArg (Option.getD · choice.first) h

variable {pairs : List (α × Binary64)} {sum : Binary64}

theorem sums_cons {p : α × Binary64} (hp : isWeight p.2 = true)
    {rest : List (α × Binary64)} {total : Binary64}
    (hrest : sums (sum + p.2) pairs = .ok (rest, total)) :
    sums sum (p :: pairs) = .ok ((p.1, sum) :: rest, total) := by
  unfold sums
  rw [if_pos hp, hrest]
  rfl

theorem sums_of_weights (h : ∀ p ∈ pairs, isWeight p.2 = true) (sum : Binary64) :
    ∃ further, sums sum pairs = .ok (further, addUp sum pairs) ∧
      further.map Prod.fst = pairs.map Prod.fst := by
  induction pairs generalizing sum with
  | nil => exact ⟨[], rfl, rfl⟩
  | cons p pairs ih =>
    obtain ⟨hp, hpairs⟩ := List.forall_mem_cons.mp h
    obtain ⟨further, hsums, houtcomes⟩ := ih hpairs (sum + p.2)
    exact ⟨(p.1, sum) :: further, sums_cons hp hsums, congrArg (p.1 :: ·) houtcomes⟩

theorem sums_of_not_weight (h : ∃ p ∈ pairs, isWeight p.2 = false) (sum : Binary64) :
    sums sum pairs = .error .invalidWeight := by
  obtain ⟨q, hmem, hq⟩ := h
  induction pairs generalizing sum with
  | nil => exact nomatch hmem
  | cons p pairs ih =>
    unfold sums
    split
    · next hp =>
      rcases List.mem_cons.mp hmem with rfl | hmem
      · exact absurd hp (Bool.eq_false_iff.mp hq)
      · rw [ih _ hmem]
        rfl
    · rfl

/-! ## Which weights are refused -/

theorem of_of_not_weight (h : ∃ p ∈ pairs, isWeight p.2 = false) :
    of pairs = .error .invalidWeight := by
  obtain ⟨q, hmem, hq⟩ := h
  rcases pairs with _ | ⟨⟨a, w⟩, pairs⟩
  · exact nomatch hmem
  · unfold of
    dsimp only
    split
    · next hw =>
      rcases List.mem_cons.mp hmem with rfl | hmem
      · exact absurd hw (Bool.eq_false_iff.mp hq)
      · rw [sums_of_not_weight ⟨q, hmem, hq⟩]
        rfl
    · rfl

/-- What stays below the total when it is multiplied with the greatest fraction. -/
def scaleOf (total : Binary64) : Binary64 :=
  total.lowered fun s => total.le (s * Draw.greatestFraction)

/-- **What becomes of weights that are some**, with their total. -/
theorem of_of_weights {a : α} {w : Binary64} (h : ∀ p ∈ (a, w) :: pairs, isWeight p.2 = true) :
    ∃ further, sums w pairs = .ok (further, addUp w pairs) ∧
      further.map Prod.fst = pairs.map Prod.fst ∧
      of ((a, w) :: pairs)
        = if (addUp w pairs).equal 0 then .error .allZero
          else if (addUp w pairs).isFinite then .ok ⟨a, further, scaleOf (addUp w pairs)⟩
          else .error .infiniteTotal := by
  obtain ⟨hw, hpairs⟩ := List.forall_mem_cons.mp h
  obtain ⟨further, hsums, houtcomes⟩ := sums_of_weights hpairs w
  refine ⟨further, hsums, houtcomes, ?_⟩
  unfold of scaleOf
  dsimp only
  rw [if_pos hw, hsums]
  generalize addUp w pairs = total
  dsimp only [bind, Except.bind]
  rcases total.equal 0 with _ | _
  · rcases total.isFinite with _ | _ <;> rfl
  · rfl

theorem isWeight_eq_false_iff {w : Binary64} : isWeight w = false ↔ w = nan ∨ w.lt 0 = true :=
  zero_le_eq_false_iff

/-- **Why outcomes and weights are refused.** -/
def RefusedFor (pairs : List (α × Binary64)) : WeightError → Prop
  | .noWeights => pairs = []
  | .invalidWeight => ∃ p ∈ pairs, isWeight p.2 = false
  | .allZero => pairs ≠ [] ∧ (∀ p ∈ pairs, isWeight p.2 = true) ∧
      (runningTotal pairs).equal 0 = true
  | .infiniteTotal => (∀ p ∈ pairs, isWeight p.2 = true) ∧
      (runningTotal pairs).isFinite = false

/-- No two reasons apply at a time. -/
theorem RefusedFor.unique {e e' : WeightError} (h : RefusedFor pairs e)
    (h' : RefusedFor pairs e') : e = e' := by
  have hnot : (∃ p ∈ pairs, isWeight p.2 = false) → ¬∀ p ∈ pairs, isWeight p.2 = true :=
    fun ⟨p, hmem, hp⟩ hall => Bool.eq_false_iff.mp hp (hall p hmem)
  have hfinite : (runningTotal pairs).equal 0 = true → (runningTotal pairs).isFinite ≠ false :=
    fun h0 h => Bool.eq_false_iff.mp h (isFinite_of_equal_zero h0)
  have hnil : pairs = [] → (∀ p ∈ pairs, isWeight p.2 ≠ false) ∧
      (runningTotal pairs).isFinite ≠ false := by
    rintro rfl
    exact ⟨nofun, by simp [runningTotal]⟩
  cases e <;> cases e' <;> simp only [RefusedFor] at h h' <;> grind

/-- **What becomes of outcomes and weights**: they are refused for a reason that
applies, or there is a total that is finite and not zero. -/
theorem of_outcome (pairs : List (α × Binary64)) :
    (∃ e, of pairs = .error e ∧ RefusedFor pairs e) ∨
      ∃ a w rest further, pairs = (a, w) :: rest ∧ (∀ p ∈ pairs, isWeight p.2 = true) ∧
        sums w rest = .ok (further, addUp w rest) ∧
        further.map Prod.fst = rest.map Prod.fst ∧
        (addUp w rest).isFinite = true ∧ (addUp w rest).equal 0 = false ∧
        of pairs = .ok ⟨a, further, scaleOf (addUp w rest)⟩ := by
  by_cases hbad : ∃ p ∈ pairs, isWeight p.2 = false
  · exact .inl ⟨.invalidWeight, of_of_not_weight hbad, hbad⟩
  have hall : ∀ p ∈ pairs, isWeight p.2 = true := fun p hp =>
    Bool.eq_true_of_not_eq_false fun h => hbad ⟨p, hp, h⟩
  rcases pairs with _ | ⟨⟨a, w⟩, rest⟩
  · exact .inl ⟨.noWeights, rfl, rfl⟩
  obtain ⟨further, hsums, houtcomes, hof⟩ := of_of_weights hall
  rcases hzero : (addUp w rest).equal 0 with _ | _
  · rcases hfinite : (addUp w rest).isFinite with _ | _
    · rw [hzero, hfinite] at hof
      exact .inl ⟨.infiniteTotal, hof, hall, hfinite⟩
    · rw [hzero, hfinite] at hof
      exact .inr ⟨a, w, rest, further, rfl, hall, hsums, houtcomes, hfinite, hzero, hof⟩
  · rw [hzero] at hof
    exact .inl ⟨.allZero, hof, List.cons_ne_nil _ _, hall, hzero⟩

/-- **What is refused, and why**, for any list of outcomes and weights. -/
theorem of_eq_error_iff (pairs : List (α × Binary64)) (e : WeightError) :
    of pairs = .error e ↔ RefusedFor pairs e := by
  rcases of_outcome pairs with ⟨e', he', hreason⟩ |
    ⟨a, w, rest, further, rfl, hall, -, -, hfinite, hzero, hof⟩
  · rw [he']
    constructor
    · rintro ⟨⟩
      exact hreason
    · intro h
      rw [hreason.unique h]
  · rw [hof]
    refine ⟨nofun, fun h => ?_⟩
    exfalso
    cases e with
    | noWeights => exact nomatch h
    | invalidWeight =>
      obtain ⟨p, hmem, hp⟩ := h
      exact Bool.eq_false_iff.mp hp (hall p hmem)
    | allZero => exact Bool.eq_false_iff.mp hzero h.2.2
    | infiniteTotal => exact Bool.eq_false_iff.mp h.2 hfinite

/-! ## Stretches -/

theorem addUp_infinite (h : ∀ p ∈ pairs, isWeight p.2 = true) :
    addUp (infinite false) pairs = infinite false := by
  induction pairs with
  | nil => rfl
  | cons p pairs ih =>
    obtain ⟨hp, hpairs⟩ := List.forall_mem_cons.mp h
    show addUp (infinite false + p.2) pairs = _
    rw [infinite_add hp, ih hpairs]

/-- **A finite total has finite terms**: the sum it begins with. -/
theorem nonnegative_of_addUp (hsum : isWeight sum = true)
    (h : ∀ p ∈ pairs, isWeight p.2 = true) (hfinite : (addUp sum pairs).isFinite = true) :
    sum.Nonnegative := by
  rcases nonnegative_or_infinite hsum with hsum | rfl
  · exact hsum
  · rw [addUp_infinite h] at hfinite
    exact nomatch hfinite

/-- The first weight that is added, and the sum it makes. -/
theorem nonnegative_of_addUp_cons {w : Binary64} (hsum : sum.Nonnegative)
    (hw : isWeight w = true) (h : ∀ p ∈ pairs, isWeight p.2 = true)
    (hfinite : (addUp (sum + w) pairs).isFinite = true) :
    w.Nonnegative ∧ (sum + w).Nonnegative := by
  rcases nonnegative_or_infinite hw with hw | rfl
  · refine ⟨hw, ?_⟩
    rcases hsum.add_cases hw with ⟨hadd, -⟩ | hinfinite
    · exact hadd
    · rw [hinfinite, addUp_infinite h] at hfinite
      exact nomatch hfinite
  · rw [hsum.add_infinite, addUp_infinite h] at hfinite
    exact nomatch hfinite

theorem nonnegative_addUp (hsum : sum.Nonnegative) (h : ∀ p ∈ pairs, isWeight p.2 = true)
    (hfinite : (addUp sum pairs).isFinite = true) : (addUp sum pairs).Nonnegative := by
  induction pairs generalizing sum with
  | nil => exact hsum
  | cons p pairs ih =>
    obtain ⟨hp, hpairs⟩ := List.forall_mem_cons.mp h
    exact ih (nonnegative_of_addUp_cons hsum hp hpairs hfinite).2 hpairs hfinite

/-- **The sums never decrease**: none of those that follow is below the sum that
they begin with. -/
theorem le_of_mem_sums (hsum : sum.Nonnegative) (h : ∀ p ∈ pairs, isWeight p.2 = true)
    (hfinite : (addUp sum pairs).isFinite = true) {further : List (α × Binary64)}
    (hsums : sums sum pairs = .ok (further, addUp sum pairs)) :
    ∀ entry ∈ further, entry.2.isFinite = true ∧ sum.scaled ≤ entry.2.scaled := by
  induction pairs generalizing sum further with
  | nil =>
    obtain rfl : [] = further := congrArg Prod.fst (Except.ok.inj hsums)
    exact fun entry hentry => nomatch hentry
  | cons p pairs ih =>
    obtain ⟨hp, hpairs⟩ := List.forall_mem_cons.mp h
    obtain ⟨hw, hadd⟩ := nonnegative_of_addUp_cons hsum hp hpairs hfinite
    have hle := (hsum.le_add hw hadd.1).2
    obtain ⟨rest, hrest, -⟩ := sums_of_weights hpairs (sum + p.2)
    obtain rfl : (p.1, sum) :: rest = further :=
      congrArg Prod.fst (Except.ok.inj ((sums_cons hp hrest).symm.trans hsums))
    refine List.forall_mem_cons.mpr ⟨⟨hsum.1, le_refl _⟩, fun entry hentry => ?_⟩
    obtain ⟨hentry, hrest⟩ := ih hadd hpairs hfinite hrest entry hentry
    exact ⟨hentry, hle.trans hrest⟩

/-- **The stretch that a number falls into has been made by a weight above
zero.** The first stretch is the one that ends with `sum`, and `v` is the weight
that has made it. -/
theorem pos_of_passed {x v : Binary64} {a : α} (hx : x.isFinite = true) (hsum : sum.Nonnegative)
    (h : ∀ p ∈ pairs, isWeight p.2 = true) {further : List (α × Binary64)}
    (hsums : sums sum pairs = .ok (further, addUp sum pairs))
    (hfinite : (addUp sum pairs).isFinite = true)
    (hbelow : x.scaled < (addUp sum pairs).scaled) (hv : v.isFinite = true)
    (hfirst : x.scaled < sum.scaled → 0 < v.scaled) :
    ∃ p, ((a, v) :: pairs)[(further.filter fun entry => entry.2.le x).length]? = some p ∧
      p.2.isFinite = true ∧ 0 < p.2.scaled := by
  induction pairs generalizing sum further a v with
  | nil =>
    obtain rfl : [] = further := congrArg Prod.fst (Except.ok.inj hsums)
    exact ⟨(a, v), rfl, hv, hfirst hbelow⟩
  | cons p pairs ih =>
    rcases lt_or_ge x.scaled sum.scaled with hlt | hge
    · -- the sums that follow are not below this one, so none of them has been passed
      have hnone : further.filter (fun entry => entry.2.le x) = [] := by
        refine List.filter_eq_nil_iff.mpr fun entry hentry => ?_
        obtain ⟨hentry, hle⟩ := le_of_mem_sums hsum h hfinite hsums entry hentry
        rw [le_iff_scaled hentry hx]
        exact not_le.mpr (hlt.trans_le hle)
      rw [hnone]
      exact ⟨(a, v), rfl, hv, hfirst hlt⟩
    · obtain ⟨hp, hpairs⟩ := List.forall_mem_cons.mp h
      obtain ⟨hw, hadd⟩ := nonnegative_of_addUp_cons hsum hp hpairs hfinite
      obtain ⟨rest, hrest, -⟩ := sums_of_weights hpairs (sum + p.2)
      obtain rfl : (p.1, sum) :: rest = further :=
        congrArg Prod.fst (Except.ok.inj ((sums_cons hp hrest).symm.trans hsums))
      have hpassed : sum.le x = true := (le_iff_scaled hsum.1 hx).mpr hge
      rw [List.filter_cons, if_pos hpassed, List.length_cons, List.getElem?_cons_succ]
      exact ih (a := p.1) hadd hpairs hrest hfinite hbelow hw.1
        fun hlt => hsum.pos_of_lt_add hw hadd.1 (lt_of_le_of_lt hge hlt)

/-! ## The number that is drawn -/

/-- **A drawn number is not below zero, and below the total.** -/
theorem drawn_below {total f : Binary64} (htotal : total.Unsigned) (hpos : 0 < total.magnitude)
    (hf : Between 0 Draw.greatestFraction f) :
    (f * scaleOf total + 0).isFinite = true ∧ 0 ≤ (f * scaleOf total + 0).scaled ∧
      (f * scaleOf total + 0).scaled < total.scaled := by
  have hgreatest := hf.high_unsigned
  have hzero : ∀ y : Binary64, y.Unsigned → y.magnitude = 0 →
      total.le (y * Draw.greatestFraction) = false := by
    intro y hy h0
    have hnothing : round false 0 Binary64.one = round false 0 1 :=
      round_congr false Binary64.one_pos Nat.one_pos (by rw [Nat.zero_mul, Nat.zero_mul])
    rw [hy.mul_eq hgreatest, h0, Nat.zero_mul, hnothing,
      show round false 0 1 = 0 from by decide +kernel]
    exact htotal.le_zero hpos
  obtain ⟨hscale, -, hnot⟩ := lowered_unsigned hzero htotal
  change (scaleOf total).Unsigned at hscale
  change total.le (scaleOf total * Draw.greatestFraction) = false at hnot
  generalize scaleOf total = scale at *
  have hcomm : scale * Draw.greatestFraction = Draw.greatestFraction * scale := by
    rw [hscale.mul_eq hgreatest, hgreatest.mul_eq hscale, Nat.mul_comm]
  rw [hcomm] at hnot
  -- an infinite product would not be below the total
  have hproduct : (Draw.greatestFraction * scale).isFinite = true := by
    rw [hgreatest.mul_eq hscale] at hnot ⊢
    rcases round_cases false (Draw.greatestFraction.magnitude * scale.magnitude)
        Binary64.one_pos with
      ⟨hfinite, -⟩ | ⟨hinfinite, -⟩
    · exact hfinite
    · obtain ⟨m, p, h, rfl⟩ := htotal.eq_finite
      rw [hinfinite] at hnot
      exact nomatch hnot
  have hbetween := hf.mul hscale hproduct
  obtain ⟨hsum, hvalue⟩ := hbetween.unsigned.add_zero
  refine ⟨hsum, ?_, ?_⟩
  · rw [hvalue, hbetween.unsigned.scaled_eq]
    exact Int.natCast_nonneg _
  · rw [← Bool.not_eq_true, htotal.le_iff hbetween.high_unsigned] at hnot
    rw [hvalue, hbetween.unsigned.scaled_eq, htotal.scaled_eq, Int.ofNat_lt]
    exact hbetween.le_high.trans_lt (Nat.not_le.mp hnot)

/-- Where the total of weights is finite it is not what they are refused for. -/
theorem refused_iff
    (hfinite : (∀ p ∈ pairs, isWeight p.2 = true) → (runningTotal pairs).isFinite = true) :
    (∃ e, of pairs = .error e) ↔
      pairs = [] ∨ (∃ p ∈ pairs, p.2 = nan ∨ p.2.lt 0 = true) ∨
        (runningTotal pairs).equal 0 = true := by
  simp only [of_eq_error_iff, ← isWeight_eq_false_iff]
  constructor
  · rintro ⟨e, he⟩
    cases e with
    | noWeights => exact .inl he
    | invalidWeight => exact .inr (.inl he)
    | allZero => exact .inr (.inr he.2.2)
    | infiniteTotal => exact (Bool.eq_false_iff.mp he.2 (hfinite he.1)).elim
  · rintro (hnil | hbad | hzero)
    · exact ⟨.noWeights, hnil⟩
    · exact ⟨.invalidWeight, hbad⟩
    · by_cases hbad : ∃ p ∈ pairs, isWeight p.2 = false
      · exact ⟨.invalidWeight, hbad⟩
      · by_cases hnil : pairs = []
        · exact ⟨.noWeights, hnil⟩
        · exact ⟨.allZero, hnil, fun p hp =>
            Bool.eq_true_of_not_eq_false fun h => hbad ⟨p, hp, h⟩, hzero⟩

/-- **What a number below the total comes to**: an outcome of some weight. -/
theorem place_of_below {choice : WeightedChoice α} (h : of pairs = .ok choice) :
    choice.outcomes = pairs.map Prod.fst ∧
      ∀ f, Between 0 Draw.greatestFraction f →
        (f * choice.scale + 0).lt (runningTotal pairs) = true ∧
        ∃ p, pairs[choice.place (f * choice.scale + 0)]? = some p ∧ Binary64.lt 0 p.2 = true := by
  rcases of_outcome pairs with ⟨e, he, -⟩ |
    ⟨a, w, rest, further, rfl, hall, hsums, houtcomes, htotal, hzero, hof⟩
  · exact nomatch he.symm.trans h
  obtain rfl := Except.ok.inj (hof.symm.trans h)
  refine ⟨congrArg (a :: ·) houtcomes, fun f hf => ?_⟩
  obtain ⟨hw, hrest⟩ := List.forall_mem_cons.mp hall
  have hnonnegative := nonnegative_of_addUp hw hrest htotal
  obtain ⟨hunsigned, hpos⟩ := (nonnegative_addUp hnonnegative hrest htotal).unsigned hzero
  obtain ⟨hx, hlow, hbelow⟩ := drawn_below hunsigned hpos hf
  obtain ⟨p, hp, hfin, hweight⟩ := pos_of_passed (a := a) hx hnonnegative hrest hsums htotal
    hbelow hnonnegative.1 (fun h => hlow.trans_lt h)
  exact ⟨(lt_iff_scaled hx htotal).mpr hbelow, p, hp, (zero_lt_iff hfin).mpr hweight⟩

/-- **Weights are refused or they decide.** Where those that are weights have a
finite total, they are refused if and only if there are none, one is negative or
not a number, or the total is zero. Otherwise, whatever stream is read, the
number that is drawn is below the total, the partial sums that it has passed
lead to a place among the outcomes, and the weight at this place is above
zero. -/
theorem of_refused_or_drawn (pairs : List (α × Binary64))
    (hfinite : (∀ p ∈ pairs, isWeight p.2 = true) → (runningTotal pairs).isFinite = true) :
    ((∃ e, of pairs = .error e) ↔
        pairs = [] ∨ (∃ p ∈ pairs, p.2 = nan ∨ p.2.lt 0 = true) ∨
          (runningTotal pairs).equal 0 = true) ∧
      ∀ choice, of pairs = .ok choice →
        choice.outcomes = pairs.map Prod.fst ∧
        ∀ stream, ∃ f rest p, Draw.fraction.readFrom stream = (.ok f, rest) ∧
          (f * choice.scale + 0).lt (runningTotal pairs) = true ∧
          pairs[choice.place (f * choice.scale + 0)]? = some p ∧
          Binary64.lt 0 p.2 = true ∧
          choice.draw.readFrom stream = (.ok p.1, rest) := by
  refine ⟨refused_iff hfinite, fun choice hchoice => ?_⟩
  obtain ⟨hplaces, hbelow⟩ := place_of_below hchoice
  refine ⟨hplaces, fun stream => ?_⟩
  obtain ⟨f, hf, hfraction⟩ | ⟨e, -, he⟩ :=
    (Draw.fraction_gives (E := fun _ => False)).outcome stream
  · obtain ⟨hless, p, hp, hweight⟩ := hbelow f hfraction
    have hread : Draw.fraction.readFrom stream = (.ok f, (Draw.fraction.readFrom stream).2) :=
      Prod.ext hf rfl
    refine ⟨f, _, p, hread, hless, hp, hweight, ?_⟩
    unfold draw
    rw [Draw.readFrom_bind, hread]
    refine Prod.ext (congrArg Except.ok (outcomeAt_of_place ?_)) rfl
    rw [hplaces, List.getElem?_map]
    exact congrArg (Option.map Prod.fst) hp
  · exact he.elim

/-- Outcomes without weight are not drawn, be they the first, the last or in
between. -/
theorem of_refused_or_drawn_zeros :
    ∃ choice, of [(1, 0), (2, 3), (3, 0), (4, 0.5), (5, 0), (6, (0 : Binary64))] = .ok choice ∧
      ∀ stream, ∃ a rest, choice.draw.readFrom stream = (.ok a, rest) ∧ (a = 2 ∨ a = 4) := by
  obtain ⟨hrefused, hdrawn⟩ := of_refused_or_drawn
    [(1, 0), (2, 3), (3, 0), (4, 0.5), (5, 0), (6, (0 : Binary64))] (fun _ => by decide +kernel)
  generalize hof : of _ = outcome at hrefused hdrawn ⊢
  rcases outcome with e | choice
  · exact absurd (hrefused.mp ⟨e, rfl⟩) (by decide +kernel)
  · refine ⟨choice, rfl, fun stream => ?_⟩
    obtain ⟨f, rest, p, -, -, hp, hpos, hdraw⟩ := (hdrawn choice rfl).2 stream
    have hweighty : ∀ p ∈ [(1, 0), (2, 3), (3, 0), (4, 0.5), (5, 0), (6, (0 : Binary64))],
        Binary64.lt 0 p.2 = true → p.1 = 2 ∨ p.1 = 4 := by decide +kernel
    exact ⟨p.1, rest, hdraw, hweighty p (List.mem_of_getElem? hp) hpos⟩

end WeightedChoice

end Academy
