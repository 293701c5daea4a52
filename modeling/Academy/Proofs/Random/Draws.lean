import Academy.Proofs.Binary64.Places
import Academy.Random.WeightedChoice

/-!
# What comes of a draw

Most of what has to be known of a draw is what its value can be, whatever
words it reads: a number of a span lies in the span, an item of a list is
one of the list. `Draw.Gives` says that, for every stream and with it for
every seed and for every state in which earlier draws have left the
stream. It says of the failures too which of them there can be, so that a
draw for which there are none is known to have a value.

A draw that is put together from others gives what follows from what they
give (`Gives.bind`), and no proof looks at the words again.
-/

namespace Academy.Draw

variable {α β : Type}

/-! ## Reading from a stream -/

theorem readFrom_bind (draw : Draw α) (next : α → Draw β) (stream : WordStream) :
    readFrom (draw >>= next) stream
      = match readFrom draw stream with
        | (.ok a, rest) => readFrom (next a) rest
        | (.error e, rest) => (.error e, rest) := by
  show (ExceptT.bindCont next (readFrom draw stream).1 : StateM WordStream _).run
    (readFrom draw stream).2 = _
  rcases readFrom draw stream with ⟨e | a, rest⟩ <;> rfl

/-- A draw goes on with the value that has been read, from where it has been read. -/
theorem readFrom_bind_of_ok {draw : Draw α} {stream mid : WordStream} {a : α}
    (h : readFrom draw stream = (.ok a, mid)) (next : α → Draw β) :
    readFrom (draw >>= next) stream = readFrom (next a) mid := by
  rw [readFrom_bind, h]

theorem readFrom_bind_eq_ok {draw : Draw α} {next : α → Draw β} {stream rest : WordStream} {b : β} :
    readFrom (draw >>= next) stream = (.ok b, rest)
      ↔ ∃ a mid, readFrom draw stream = (.ok a, mid) ∧ readFrom (next a) mid = (.ok b, rest) := by
  rw [readFrom_bind]
  rcases readFrom draw stream with ⟨e | a, mid⟩
  · exact ⟨nofun, nofun⟩
  · constructor
    · exact fun h => ⟨a, mid, rfl, h⟩
    · rintro ⟨_, _, ⟨⟩, h⟩
      exact h

@[simp] theorem readFrom_map (f : α → β) (draw : Draw α) (stream : WordStream) :
    readFrom (f <$> draw) stream
      = ((readFrom draw stream).1.map f, (readFrom draw stream).2) := by
  rw [← bind_pure_comp, readFrom_bind]
  rcases readFrom draw stream with ⟨e | a, rest⟩ <;> rfl

theorem readFrom_map_eq_ok {f : α → β} {draw : Draw α} {stream rest : WordStream} {b : β} :
    readFrom (f <$> draw) stream = (.ok b, rest)
      ↔ ∃ a, readFrom draw stream = (.ok a, rest) ∧ f a = b := by
  rw [readFrom_map]
  rcases readFrom draw stream with ⟨e | a, mid⟩
  · exact ⟨nofun, nofun⟩
  · constructor
    · rintro ⟨⟩
      exact ⟨a, rfl, rfl⟩
    · rintro ⟨_, ⟨⟩, rfl⟩
      rfl

/-! ## The values of a draw -/

/-- **What comes of a draw**, whatever stream it reads: a value with `P`, or a
failure with `E`. -/
def Gives (draw : Draw α) (E : DrawError → Prop) (P : α → Prop) : Prop :=
  ∀ stream, match (draw.readFrom stream).1 with
    | .ok a => P a
    | .error e => E e

variable {E : DrawError → Prop} {P : α → Prop} {Q : β → Prop}

theorem Gives.of_readFrom {draw : Draw α} {stream rest : WordStream} {a : α} (h : draw.Gives E P)
    (hrun : readFrom draw stream = (.ok a, rest)) : P a := by
  have hdraw := h stream
  rwa [hrun] at hdraw

/-- A draw gives a value or fails, whatever it reads. -/
theorem Gives.outcome {draw : Draw α} (h : draw.Gives E P) (stream : WordStream) :
    (∃ a, (draw.readFrom stream).1 = .ok a ∧ P a) ∨
      ∃ e, (draw.readFrom stream).1 = .error e ∧ E e := by
  have hdraw := h stream
  generalize (readFrom draw stream).1 = outcome at hdraw ⊢
  rcases outcome with e | a
  · exact .inr ⟨e, rfl, hdraw⟩
  · exact .inl ⟨a, rfl, hdraw⟩

/-- A draw that does not fail gives a value, whatever it reads. -/
theorem Gives.reads {draw : Draw α} (h : draw.Gives (fun _ => False) P) (stream : WordStream) :
    ∃ a rest, readFrom draw stream = (.ok a, rest) ∧ P a := by
  obtain ⟨a, ha, hP⟩ | ⟨e, -, he⟩ := h.outcome stream
  · exact ⟨a, _, Prod.ext ha rfl, hP⟩
  · exact he.elim

theorem gives_pure {a : α} (h : P a) : (pure a : Draw α).Gives E P :=
  fun _ => h

theorem gives_throw {e : DrawError} (h : E e) : (throw e : Draw α).Gives E P :=
  fun _ => h

theorem gives_any (draw : Draw α) : draw.Gives (fun _ => True) (fun _ => True) := by
  intro stream
  split <;> trivial

/-- **A draw that goes on with what another gives.** -/
theorem Gives.bind {draw : Draw α} {next : α → Draw β} (h : draw.Gives E P)
    (hnext : ∀ a, P a → (next a).Gives E Q) : (draw >>= next).Gives E Q := by
  intro stream
  have hdraw := h stream
  rw [readFrom_bind]
  generalize readFrom draw stream = outcome at hdraw
  rcases outcome with ⟨e | a, rest⟩
  · exact hdraw
  · exact hnext a hdraw rest

/-- A draw that goes on with what one of two others gives. -/
theorem Gives.ite_bind {c : Prop} [Decidable c] {yes no : Draw α} {next : α → Draw β}
    (h : (if c then yes else no).Gives E P) (hnext : ∀ a, P a → (next a).Gives E Q) :
    (if c then yes >>= next else no >>= next).Gives E Q := by
  by_cases hc : c
  · rw [if_pos hc] at h ⊢
    exact h.bind hnext
  · rw [if_neg hc] at h ⊢
    exact h.bind hnext

theorem Gives.map {draw : Draw α} {f : α → β} (h : draw.Gives E P) (hf : ∀ a, P a → Q (f a)) :
    (f <$> draw).Gives E Q := by
  rw [← bind_pure_comp]
  exact h.bind fun a ha => gives_pure (hf a ha)

theorem Gives.imp {draw : Draw α} {P' : α → Prop} (h : draw.Gives E P)
    (hP : ∀ a, P a → P' a) : draw.Gives E P' := by
  intro stream
  have hdraw := h stream
  generalize (readFrom draw stream).1 = outcome at *
  rcases outcome with e | a
  · exact hdraw
  · exact hP a hdraw

/-- Two things that are known of what a draw gives. -/
theorem Gives.and {draw : Draw α} {P' : α → Prop} (h : draw.Gives E P) (h' : draw.Gives E P') :
    draw.Gives E (fun a => P a ∧ P' a) := by
  intro stream
  have hdraw := h stream
  have hdraw' := h' stream
  generalize (readFrom draw stream).1 = outcome at *
  rcases outcome with e | a
  · exact hdraw
  · exact ⟨hdraw, hdraw'⟩

/-! ## Numbers of a span -/

theorem word_gives : word.Gives E (· < 2 ^ 32) := by
  intro stream
  show stream.next.1.toNat < 2 ^ 32
  exact stream.next.1.toNat_lt

theorem wide_gives : wide.Gives E (· < 2 ^ 64) := by
  refine word_gives.bind fun low hlow => word_gives.bind fun high hhigh => gives_pure ?_
  show low + high * 4294967296 < _
  omega

/-- **The upper half of a product is below the size**, even where the lower
half would have to be rejected and is not. -/
theorem scaled_gives {draw : Draw Nat} {bits size zone : Nat} (h : draw.Gives E (· < 2 ^ bits))
    (hsize : 0 < size) (patience : Nat) :
    (scaled draw bits size zone patience).Gives E (· < size) := by
  have hupper : ∀ v < 2 ^ bits, v * size / Nat.pow 2 bits < size := by
    intro v hv
    rw [Nat.pow_eq, Nat.div_lt_iff_lt_mul (Nat.two_pow_pos bits), Nat.mul_comm]
    exact Nat.mul_lt_mul_of_pos_left hv hsize
  induction patience with
  | zero => exact h.bind fun v hv => gives_pure (hupper v hv)
  | succ patience ih =>
    refine h.bind fun v hv => ?_
    split
    · exact gives_pure (hupper v hv)
    · exact ih

/-- A number of a span lies in the span, whatever words are rejected for it. -/
theorem span_gives {span : Span} (h : span.low ≤ span.high) (zone : Nat) :
    (scaled word 32 span.size zone patience >>= fun n => pure (span.low + n)).Gives E
      (fun n => span.low ≤ n ∧ n ≤ span.high) := by
  refine (scaled_gives word_gives ?_ patience).bind fun n hn => gives_pure ?_
  · exact Nat.succ_pos _
  · have : n < span.high - span.low + 1 := hn
    omega

theorem short_gives {span : Span} (h : span.low ≤ span.high) :
    (short span).Gives E (fun n => span.low ≤ n ∧ n ≤ span.high) :=
  span_gives h _

theorem within_gives {span : Span} (h : span.low ≤ span.high) :
    (within span).Gives E (fun n => span.low ≤ n ∧ n ≤ span.high) :=
  span_gives h _

theorem wideUpTo_gives (high : Nat) : (wideUpTo high).Gives E (· ≤ high) :=
  (scaled_gives wide_gives (Nat.succ_pos high) patience).imp fun _ => Nat.le_of_lt_succ

/-! ## Choices -/

theorem place_gives {length : Nat} (h : 0 < length) : (place length).Gives E (· < length) := by
  unfold place
  split
  · exact (within_gives (Nat.zero_le _)).imp fun n hn => Nat.lt_of_le_pred h hn.2
  · exact (wideUpTo_gives _).imp fun n hn => Nat.lt_of_le_pred h hn

theorem pick_gives (items : List α) (h : 0 < items.length) : (pick items h).Gives E (· ∈ items) := by
  refine (place_gives h).bind fun n hn => gives_pure ?_
  rw [List.getElem?_eq_getElem hn, Option.getD_some]
  exact List.getElem_mem hn

/-- **A choice finds an item if and only if there is one.** -/
theorem choose_gives (items : List α) :
    (choose items).Gives E (fun o => match o with
      | some a => a ∈ items
      | none => items = []) := by
  unfold choose
  split
  · next h => exact (pick_gives items h).map fun a ha => ha
  · next h => exact gives_pure (List.eq_nil_of_length_eq_zero (Nat.eq_zero_of_not_pos h))

theorem chance_gives (probability : Binary64) : (chance probability).Gives E (fun _ => True) :=
  wide_gives.bind fun _ _ => gives_pure trivial

/-- **A date is as far back as is allowed at most**, and one is missed only
where the calendar does not reach as far. -/
theorem daysBack_gives {reach most : Nat} (hE : reach < most → E .beforeCalendar) :
    (daysBack reach most).Gives E (fun days => days ≤ most ∧ days ≤ reach) := by
  refine (wideUpTo_gives most).bind fun days hdays => ?_
  split
  · next h => exact gives_pure ⟨hdays, h⟩
  · next h => exact gives_throw (hE (by omega))

end Academy.Draw

namespace Academy

theorem WeightedChoice.draw_gives {α : Type} {E : DrawError → Prop} (choice : WeightedChoice α) :
    choice.draw.Gives E (· ∈ choice.outcomes) := by
  refine Draw.Gives.bind (P := fun _ => True) ?_ fun f _ => Draw.gives_pure ?_
  · exact Draw.wide_gives.bind fun _ _ => Draw.gives_pure trivial
  · unfold outcomeAt
    dsimp only
    generalize (choice.further.filter _).length = passed
    rcases hpassed : choice.outcomes[passed]? with _ | a
    · exact List.mem_cons_self
    · exact List.mem_of_getElem? hpassed

/-! ## Numbers of a range -/

open Binary64

/-- The numbers between which a fraction lies. -/
theorem Draw.fraction_gives {E : DrawError → Prop} :
    Draw.fraction.Gives E (Between 0 Draw.greatestFraction) := by
  refine Draw.wide_gives.bind fun n hn => Draw.gives_pure ?_
  -- of the 64 bits the upper 52 are kept
  have hn' : n / Nat.pow 2 12 ≤ Nat.pow 2 52 - 1 := by
    have : n / 2 ^ 12 < 2 ^ 52 := (Nat.div_lt_iff_lt_mul (by decide)).mpr hn
    exact Nat.le_sub_one_of_lt this
  have h0 : (0 : Binary64) = round false 0 1 := by decide +kernel
  have hfinite : Draw.greatestFraction.isFinite = true := by decide +kernel
  rw [h0]
  unfold Draw.greatestFraction at hfinite ⊢
  generalize Nat.pow 2 1022 = units at *
  refine between_round Nat.one_pos Nat.one_pos Nat.one_pos ?_ ?_ hfinite
  · rw [Nat.zero_mul]
    exact Nat.zero_le _
  · exact Nat.mul_le_mul_right _ (Nat.mul_le_mul_right _ hn')

namespace UniformRange

/-- The least and the greatest number of a range, before rounding. -/
def ends (range : UniformRange) : Binary64 × Binary64 :=
  (0 * range.scale + range.low, Draw.greatestFraction * range.scale + range.low)

/-- **What has to hold of a range of numbers without a sign**, so that rounding
to the given places leaves them between `least` and `greatest` units of the
last place. -/
def Covers (range : UniformRange) (places : Int) (least greatest : Nat) : Prop :=
  range.low.Unsigned ∧ range.scale.Unsigned ∧ (placesFactor places).Unsigned ∧
    (Draw.greatestFraction * range.scale).isFinite = true ∧
    range.ends.2.isFinite = true ∧
    (range.ends.2 * placesFactor places).isFinite = true ∧
    least ≤ (range.ends.1 * placesFactor places).wholes ∧
    (range.ends.2 * placesFactor places).wholes ≤ greatest

instance (range : UniformRange) (places : Int) (least greatest : Nat) :
    Decidable (range.Covers places least greatest) :=
  inferInstanceAs (Decidable (_ ∧ _))

/-- **A rounded number of a range** is a whole number of units of the last
place, between those of the ends. -/
theorem drawRounded_gives {E : DrawError → Prop} {range : UniformRange} {places : Int}
    {least greatest : Nat} (h : range.Covers places least greatest) :
    (range.drawRounded places).Gives E (HasPlaces places least greatest) := by
  obtain ⟨hlow, hscale, hfactor, hproduct, hsum, hscaled, hleast, hgreatest⟩ := h
  refine Draw.Gives.bind (P := Between range.ends.1 range.ends.2) ?_ fun x hx => ?_
  · exact Draw.fraction_gives.bind fun f hf =>
      Draw.gives_pure ((hf.mul hscale hproduct).add hlow hsum)
  · have hbetween := hx.mul hfactor hscaled
    refine Draw.gives_pure ⟨_, ?_, ?_, roundTo_eq_ofPlaces hbetween.unsigned⟩
    · exact hleast.trans (Between.wholes_le hbetween.low_le)
    · exact (Between.wholes_le hbetween.le_high).trans hgreatest

end UniformRange

end Academy
