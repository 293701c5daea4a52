import Mathlib.Data.List.Nodup
import Academy.Proofs.Generation.Dataset
import Academy.Proofs.Integrity.Rules

/-!
# What is made passes the check

Making and checking know of one another through the records alone. A sound
record keeps the rules of the check, once it is known that what it names
is found under the name: and that needs the identifiers of categories, and
those of instructors, to be different, since of several the last one is
found.

Identifiers are told apart by a counter that comes round, so those of a
large dataset are not all different. Categories and instructors come
first, though, and there are no more of them than in the catalog. What is
said of later records does not need their identifiers to be different:
that some record has an identifier is all that the rules ask for.
-/

namespace Academy

/-! ## Identifiers that follow each other -/

namespace Identifier

@[simp] theorem counter_ofParts (second : BitVec 32) (process : BitVec 40) (counter : BitVec 24) :
    (ofParts second process counter).counter = counter := by
  unfold ofParts Identifier.counter
  exact BitVec.extractLsb'_append_eq_right

/-- **The counter of an identifier** counts the uses, and comes round. -/
theorem Source.toNat_counter_identifier (source : Source) (use : Nat) :
    (source.identifier use).counter.toNat = (source.start.toNat + use) % 2 ^ 24 := by
  rw [Source.identifier, counter_ofParts, BitVec.toNat_setWidth]
  show (source.start + UInt32.ofNat use).toNat % 2 ^ 24 = _
  rw [UInt32.toNat_add, UInt32.toNat_ofNat']
  omega

/-- Identifiers are different within one round of the counter. -/
theorem Source.identifier_inj {source : Source} {i j : Nat} (hi : i < 2 ^ 24) (hj : j < 2 ^ 24)
    (h : source.identifier i = source.identifier j) : i = j := by
  have hcounter := congrArg (fun id => id.counter.toNat) h
  rw [source.toNat_counter_identifier, source.toNat_counter_identifier] at hcounter
  omega

theorem Source.nodup_identifiers (source : Source) {n : Nat} (hn : n ≤ 2 ^ 24) :
    ((List.range n).map source.identifier).Nodup := by
  refine List.nodup_range.map_on fun i hi j hj h => ?_
  rw [List.mem_range] at hi hj
  exact Source.identifier_inj (by omega) (by omega) h

end Identifier

/-! ## Sound records keep the rules -/

section

variable {Ref Date : Type}

/-- Among items with different keys, one is found by its key. -/
theorem filter_key_eq {α : Type} [DecidableEq Ref] {key : α → Ref} {l : List α}
    (h : (l.map key).Nodup) {a : α} (ha : a ∈ l) : l.filter (key · = key a) = [a] := by
  induction l with
  | nil => exact nomatch ha
  | cons b l ih =>
    rw [List.map_cons, List.nodup_cons] at h
    rcases List.mem_cons.mp ha with rfl | hmem
    · rw [List.filter_cons_of_pos (by simp), List.filter_eq_nil_iff.mpr]
      intro b hb hkey
      exact h.1 (of_decide_eq_true hkey ▸ List.mem_map_of_mem hb)
    · rw [List.filter_cons_of_neg, ih h.2 hmem]
      intro hkey
      exact h.1 (of_decide_eq_true hkey ▸ List.mem_map_of_mem hmem)

namespace Dataset

variable [DecidableEq Ref] {d : Dataset Ref Date}

theorem references_categoryName (h : (d.categories.map (·.id)).Nodup) {category : Category Ref}
    (hcategory : category ∈ d.categories) :
    d.references.categoryName category.id = some category.name := by
  unfold references
  dsimp only
  rw [filter_key_eq h hcategory]
  rfl

theorem references_specialty (h : (d.instructors.map (·.id)).Nodup) {instructor : Instructor Ref}
    (hinstructor : instructor ∈ d.instructors) :
    d.references.specialty instructor.id = some instructor.specialty := by
  unfold references
  dsimp only
  rw [filter_key_eq h hinstructor]
  rfl

/-- A specialty that is found is that of an instructor. -/
theorem exists_of_references_specialty {r : Ref} {specialty : String}
    (h : d.references.specialty r = some specialty) :
    ∃ instructor ∈ d.instructors, instructor.specialty = specialty := by
  obtain ⟨instructor, hlast, rfl⟩ := Option.map_eq_some_iff.mp h
  exact ⟨instructor, (List.mem_filter.mp (List.mem_of_getLast? hlast)).1, rfl⟩

end Dataset

/-! ## Record by record -/

open Binary64

variable [DecidableEq Ref] {d : Dataset Ref Date} {rule : BrokenRule}

/-- **A sound course breaks no rule.** -/
theorem Course.Sound.not_breaks {course : Course Ref Date}
    (h : course.Sound d.categories d.instructors)
    (hcategories : (d.categories.map (·.id)).Nodup)
    (hinstructors : (d.instructors.map (·.id)).Nodup) : ¬ course.Breaks d.references rule := by
  obtain ⟨category, hcategory, instructor, hinstructor, hc, hi, htaught⟩ := h.taught
  have hname := d.references_categoryName hcategories hcategory
  have hspecialty := d.references_specialty hinstructors hinstructor
  rw [← hc] at hname
  rw [← hi] at hspecialty
  intro hbreaks
  cases rule with
  | unknownCategory => exact nomatch hname.symm.trans hbreaks
  | unknownInstructor => exact nomatch hspecialty.symm.trans hbreaks
  | otherSpecialty specialty name =>
    obtain ⟨hname', hspecialty', hne, other, hother⟩ := hbreaks
    obtain rfl := Option.some.inj (hname.symm.trans hname')
    obtain rfl := Option.some.inj (hspecialty.symm.trans hspecialty')
    -- the instructor is a specialist, or there is none to be found
    rcases htaught with heq | hnone
    · exact hne heq.symm
    · obtain ⟨specialist, hspecialist, heq⟩ := d.exists_of_references_specialty hother
      exact hnone specialist hspecialist heq
  | negativePrice =>
    obtain ⟨hunsigned, -⟩ := h.price.unsigned_pos placesFactor_two (by decide) (by decide)
      (by decide) (by decide +kernel) (by decide +kernel)
    exact nomatch hunsigned.lt_zero.symm.trans hbreaks
  | noDuration =>
    obtain ⟨hunsigned, hpos⟩ := h.hours.unsigned_pos placesFactor_one (by decide) (by decide)
      (by decide) (by decide +kernel) (by decide +kernel)
    exact nomatch (hunsigned.le_zero hpos).symm.trans hbreaks
  | _ => exact hbreaks

/-- **A sound enrollment breaks no rule.** -/
theorem Enrollment.Sound.not_breaks {e : Enrollment Ref Date}
    (h : e.Sound d.students d.courses) : ¬ e.Breaks d.references rule := by
  intro hbreaks
  cases rule with
  | unknownStudent => exact hbreaks h.participates.1
  | unknownCourse => exact hbreaks h.participates.2
  | progressOutOfSpan progress status => exact hbreaks.2.2 h.progress
  | missingGrade =>
    have hgrade := h.hasGrade
    rw [hbreaks.1, hbreaks.2] at hgrade
    exact nomatch hgrade
  | gradeOutOfRange grade => exact hbreaks.2.2 (h.grade_le hbreaks.2.1)
  | unexpectedGrade =>
    obtain ⟨hstatus, hgrade⟩ := hbreaks
    have hsome := h.hasGrade
    rw [Option.ne_none_iff_isSome.mp hgrade] at hsome
    revert hstatus hsome
    cases e.status <;> simp [EnrollmentStatus.hasFinalGrade]
  | lastAccessAgainst status =>
    refine hbreaks.2 ?_
    rw [h.lastAccessed]
    cases e.status <;> simp [EnrollmentStatus.tracksLastAccess]
  | _ => exact hbreaks

/-- **A sound review breaks no rule.** -/
theorem Review.Sound.not_breaks {r : Review Ref Date} (h : r.Sound d.students d.courses) :
    ¬ r.Breaks d.references rule := by
  intro hbreaks
  cases rule with
  | unknownStudent => exact hbreaks h.participates.1
  | unknownCourse => exact hbreaks h.participates.2
  | ratingOutOfSpan rating => exact hbreaks.2 h.rating
  | foreignComment => exact hbreaks.2 h.comment
  | _ => exact hbreaks

/-- **A sound payment breaks no rule.** -/
theorem Payment.Sound.not_breaks {p : Payment Ref Date} (h : p.Sound d.students d.courses) :
    ¬ p.Breaks d.references rule := by
  intro hbreaks
  cases rule with
  | unknownStudent => exact hbreaks h.participates.1
  | unknownCourse => exact hbreaks h.participates.2
  | negativeAmount =>
    have hunsigned := (h.amount.between placesFactor_two (by decide) (by decide) (by decide)
      (by decide +kernel)).unsigned
    exact nomatch hunsigned.lt_zero.symm.trans hbreaks
  | foreignCurrency currency => exact hbreaks.2 h.currency
  | _ => exact hbreaks

namespace Dataset

/-- **A sound dataset keeps the rules**, where categories and instructors are
told apart by their identifiers. -/
theorem Sound.keepsRules (h : d.Sound) (hcategories : (d.categories.map (·.id)).Nodup)
    (hinstructors : (d.instructors.map (·.id)).Nodup) : d.KeepsRules := by
  intro record hrecord rule hbreaks
  simp only [checkedRecords, List.mem_append, List.mem_map] at hrecord
  rcases hrecord with ((⟨course, hmem, rfl⟩ | ⟨e, hmem, rfl⟩) | ⟨r, hmem, rfl⟩) | ⟨p, hmem, rfl⟩
  · exact Course.Sound.not_breaks (h .courses course hmem) hcategories hinstructors hbreaks
  · exact Enrollment.Sound.not_breaks (h .enrollments e hmem) hbreaks
  · exact Review.Sound.not_breaks (h .reviews r hmem) hbreaks
  · exact Payment.Sound.not_breaks (h .payments p hmem) hbreaks

end Dataset

end

/-! ## The present and what is made in it -/

/-- The calendar reaches back as far as it can be gone back. -/
theorem Instant.le_reach {t : Instant} {days : Nat} (h : (t.daysBefore days).inCalendar = true) :
    days ≤ t.reach := by
  rcases Nat.eq_zero_or_pos days with rfl | hpos
  · exact Nat.zero_le _
  · have hfirst : firstSecond ≤ (t.daysBefore days).seconds := by
      unfold inCalendar at h
      rw [Bool.and_eq_true, decide_eq_true_iff] at h
      exact h.1
    unfold daysBefore daySeconds at hfirst
    rw [if_neg hpos.ne'] at hfirst
    unfold reach daySeconds
    generalize firstSecond = first at *
    split at hfirst
    · next hleap =>
      rw [if_pos hleap]
      dsimp only at hfirst
      omega
    · next hleap =>
      rw [if_neg hleap]
      dsimp only at hfirst
      omega

/-- The first identifiers of a dataset are those of categories and instructors,
so it is enough that the identifiers of the first places are different. -/
theorem Dataset.nodup_ids {Ref Date : Type} {d : Dataset Ref Date} {counts : Counts} {ids : Nat → Ref}
    (hcounts : d.counts = counts) (hids : d.recordIds = (List.range counts.total).map ids)
    (hnodup : ((List.range (counts.categories + counts.instructors)).map ids).Nodup) :
    (d.categories.map (·.id)).Nodup ∧ (d.instructors.map (·.id)).Nodup := by
  subst hcounts
  have hprefix : (d.categories.map (·.id) ++ d.instructors.map (·.id)) <+: d.recordIds :=
    ⟨_, (List.append_assoc _ _ _).trans rfl⟩
  have hlength : (d.categories.map (·.id) ++ d.instructors.map (·.id)).length
      = d.counts.categories + d.counts.instructors := by
    rw [List.length_append, List.length_map, List.length_map]
    rfl
  rw [List.prefix_iff_eq_take, hlength, hids, ← List.map_take, List.take_range,
    Nat.min_eq_left (by unfold Counts.total; omega)] at hprefix
  rw [← hprefix] at hnodup
  obtain ⟨hcategories, hinstructors, -⟩ := List.nodup_append.mp hnodup
  exact ⟨hcategories, hinstructors⟩

/-- A dataset as it is made keeps the rules, wherever identifiers come from. -/
theorem Dataset.Sound.keepsRules_of_ids {d : Dataset Identifier Instant} (hsound : d.Sound)
    (hcounts : d.counts.validate = .ok ()) {source : Identifier.Source}
    (hids : d.recordIds = (List.range d.counts.total).map source.identifier) : d.KeepsRules := by
  have hfew : d.counts.categories + d.counts.instructors ≤ 2 ^ 24 := by
    obtain ⟨hcategories, hinstructors, -⟩ := d.counts.validate_eq_ok_iff.mp hcounts
    have h₁ : Catalog.categories.length = 8 := rfl
    have h₂ : Catalog.instructors.length = 15 := rfl
    omega
  obtain ⟨hcategories, hinstructors⟩ := nodup_ids rfl hids (source.nodup_identifiers hfew)
  exact hsound.keepsRules hcategories hinstructors

/-- **What is made passes the check.** Take numbers of records that can be met,
any state of the words, any source of identifiers, and a present before
which the calendar still has as many days as dates go back. A dataset is
made, with these numbers of records; its check counts the courses,
enrollments, reviews and payments and finds no violation. Only where there
is no room for some collection is there no dataset. -/
theorem Dataset.draw_clean (counts : Counts) (hcounts : counts.validate = .ok ())
    (source : Identifier.Source) (now : Instant)
    (hnow : (now.daysBefore 1095).inCalendar = true) (room : Nat)
    (stream : WordStream) :
    (∃ d, ((draw room counts now.timeline source.identifier).readFrom stream).1 = .ok d ∧
      d.check.violations = [] ∧
      d.check.checked
        = counts.courses + counts.enrollments + counts.reviews + counts.payments ∧
      d.counts = counts) ∨
    (((draw room counts now.timeline source.identifier).readFrom stream).1 = .error .memory ∧
      ∃ c, room < counts.get c) := by
  have hreach : ¬ now.timeline.reach < earliestDays := Nat.not_lt.mpr (Instant.le_reach hnow)
  have hgives : (draw room counts now.timeline source.identifier).Gives
      (fun e => e = .memory ∧ ∃ c, room < counts.get c) _ :=
    draw_gives hcounts (fun h => absurd h hreach) (fun c h => ⟨rfl, c, h⟩)
  replace hgives := hgives stream
  generalize (Draw.readFrom _ stream).1 = outcome at hgives ⊢
  rcases outcome with e | d
  · obtain ⟨rfl, hroom⟩ := hgives
    exact .inr ⟨rfl, hroom⟩
  · obtain ⟨hsound, rfl, hids⟩ := hgives
    exact .inl ⟨d, rfl, d.check_violations_eq_nil_iff.mpr (hsound.keepsRules_of_ids hcounts hids),
      rfl, rfl⟩

/-- The standard numbers, with a counter that comes round within the dataset. -/
theorem Dataset.draw_clean_standard :
    Counts.standard.validate = .ok () ∧
      ((Instant.ofSeconds 1700000000).daysBefore 1095).inCalendar = true ∧
      ∃ d, ((draw memoryLimit Counts.standard (Instant.ofSeconds 1700000000).timeline
          (Identifier.Source.mk 7 16777000 fun _ => 1700000000).identifier).readFrom
          (.ofSeed 42)).1 = .ok d ∧ d.check.violations = [] ∧ d.check.checked = 3580 := by
  have hcounts : Counts.standard.validate = .ok () := by decide
  have hnow : ((Instant.ofSeconds 1700000000).daysBefore 1095).inCalendar = true := by
    decide
  refine ⟨hcounts, hnow, ?_⟩
  rcases Dataset.draw_clean Counts.standard hcounts
      (Identifier.Source.mk 7 16777000 fun _ => 1700000000) (Instant.ofSeconds 1700000000) hnow
      memoryLimit (.ofSeed 42) with ⟨d, hd, hclean, hchecked, -⟩ | ⟨-, c, hroom⟩
  · exact ⟨d, hd, hclean, hchecked⟩
  · exact absurd hroom (by cases c <;> decide)

end Academy
