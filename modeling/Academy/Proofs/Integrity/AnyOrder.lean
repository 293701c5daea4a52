import Mathlib.Data.List.Nodup
import Academy.Proofs.Integrity.Rules

/-!
# The order of the records does not matter

The check goes through lists, and of the categories and of the instructors
it keeps what comes last under each identifier. So there is one way in
which an order could matter: two categories with one identifier and
different names, or two instructors with one identifier and different
specialties. It is the only one, and it does matter – a dataset has the
same references in every order of its records exactly if there are no two
such records (`Dataset.references_anyOrder_iff`).

Once the references are the same, a record breaks the same rules wherever
it stands. The violations then come in another order and are the same
ones, each as often as before, also those of records that are there twice.
-/

namespace Academy

/-! ## What comes last under a key -/

section

variable {α β κ : Type} [DecidableEq κ] {key : α → κ} {value : α → β} {l l' : List α}

/-- The value of the last item under a key. -/
def lastUnder (key : α → κ) (value : α → β) (l : List α) (k : κ) : Option β :=
  ((l.filter (key · = k)).getLast?).map value

/-- **No two items under one key** have different values. -/
def Unambiguous (key : α → κ) (value : α → β) (l : List α) : Prop :=
  ∀ a ∈ l, ∀ b ∈ l, key a = key b → value a = value b

omit [DecidableEq κ] in
theorem Unambiguous.of_nodup (h : (l.map key).Nodup) : Unambiguous key value l :=
  fun _ ha _ hb hkey => congrArg value (List.inj_on_of_nodup_map h ha hb hkey)

/-- Without ambiguity, the last item under a key is as good as any. -/
theorem Unambiguous.lastUnder_eq_some_iff (h : Unambiguous key value l) {k : κ} {v : β} :
    lastUnder key value l k = some v ↔ ∃ a ∈ l, key a = k ∧ value a = v := by
  unfold lastUnder
  rw [Option.map_eq_some_iff]
  constructor
  · rintro ⟨a, hlast, hvalue⟩
    obtain ⟨hmem, hkey⟩ := List.mem_filter.mp (List.mem_of_getLast? hlast)
    exact ⟨a, hmem, of_decide_eq_true hkey, hvalue⟩
  · rintro ⟨a, hmem, hkey, hvalue⟩
    have ha : a ∈ l.filter (key · = k) := List.mem_filter.mpr ⟨hmem, decide_eq_true hkey⟩
    obtain ⟨b, hlast⟩ := Option.ne_none_iff_exists'.mp
      (mt List.getLast?_eq_none_iff.mp (List.ne_nil_of_mem ha))
    obtain ⟨hmem', hkey'⟩ := List.mem_filter.mp (List.mem_of_getLast? hlast)
    refine ⟨b, hlast, (h b hmem' a hmem ?_).trans hvalue⟩
    exact (of_decide_eq_true hkey').trans hkey.symm

theorem Unambiguous.lastUnder_perm (h : Unambiguous key value l) (hperm : l.Perm l') :
    lastUnder key value l' = lastUnder key value l := by
  have h' : Unambiguous key value l' := fun a ha b hb =>
    h a (hperm.mem_iff.mpr ha) b (hperm.mem_iff.mpr hb)
  funext k
  refine Option.ext fun v => ?_
  rw [h'.lastUnder_eq_some_iff, h.lastUnder_eq_some_iff]
  exact exists_congr fun a => and_congr_left' hperm.mem_iff.symm

/-- An item can be brought to the end, and is the last under its key there. -/
theorem exists_perm_lastUnder (key : α → κ) (value : α → β) {a : α} (ha : a ∈ l) :
    ∃ l', l.Perm l' ∧ lastUnder key value l' (key a) = some (value a) := by
  obtain ⟨before, after, rfl⟩ := List.append_of_mem ha
  refine ⟨before ++ after ++ [a], ?_, ?_⟩
  · exact List.perm_middle.trans (List.perm_append_singleton a (before ++ after)).symm
  · have hkept : [a].filter (key · = key a) = [a] := List.filter_cons_of_pos (decide_eq_true rfl)
    unfold lastUnder
    rw [List.filter_append, hkept, List.getLast?_concat]
    rfl

/-- **The last item under each key is the same in every order** exactly if there is
no ambiguity. -/
theorem unambiguous_iff : Unambiguous key value l ↔
    ∀ l', l.Perm l' → lastUnder key value l' = lastUnder key value l := by
  refine ⟨fun h l' => h.lastUnder_perm, fun h a ha b hb hkey => ?_⟩
  obtain ⟨endsInA, hpermA, hlastA⟩ := exists_perm_lastUnder key value ha
  obtain ⟨endsInB, hpermB, hlastB⟩ := exists_perm_lastUnder key value hb
  rw [h _ hpermA, hkey] at hlastA
  rw [h _ hpermB] at hlastB
  exact Option.some.inj (hlastA.symm.trans hlastB)

end

/-! ## Datasets in another order -/

namespace Dataset

variable {Ref Date : Type} {d d' : Dataset Ref Date}

/-- **The same records in another order**, collection by collection. -/
def Shuffled (d d' : Dataset Ref Date) : Prop :=
  ∀ c, (d.records c).Perm (d'.records c)

theorem shuffled_withCategories {categories : List (Category Ref)}
    (h : d.categories.Perm categories) : d.Shuffled { d with categories } := by
  intro c
  cases c with
  | categories => exact h
  | _ => exact List.Perm.refl _

theorem shuffled_withInstructors {instructors : List (Instructor Ref)}
    (h : d.instructors.Perm instructors) : d.Shuffled { d with instructors } := by
  intro c
  cases c with
  | instructors => exact h
  | _ => exact List.Perm.refl _

/-- The records that are checked are those of four collections. -/
theorem Shuffled.checkedRecords (h : d.Shuffled d') :
    d.checkedRecords.Perm d'.checkedRecords :=
  ((((h .courses).map _).append ((h .enrollments).map _)).append ((h .reviews).map _)).append
    ((h .payments).map _)

/-- **Nothing that is looked up is ambiguous.** -/
structure LooksUpOne (d : Dataset Ref Date) : Prop where
  /-- Categories with one identifier have one name. -/
  categories : Unambiguous Category.id Category.name d.categories
  /-- Instructors with one identifier have one specialty. -/
  instructors : Unambiguous Instructor.id Instructor.specialty d.instructors

variable [DecidableEq Ref]

theorem LooksUpOne.references_eq (hone : d.LooksUpOne) (h : d.Shuffled d') :
    d'.references = d.references := by
  refine References.ext ?_ ?_ ?_ ?_
  · exact hone.categories.lastUnder_perm (h .categories)
  · exact hone.instructors.lastUnder_perm (h .instructors)
  · funext r
    exact propext (exists_congr fun s => and_congr_left' (h .students).mem_iff.symm)
  · funext r
    exact propext (exists_congr fun c => and_congr_left' (h .courses).mem_iff.symm)

/-- **A dataset has the same references in every order of its records** exactly if
nothing that is looked up is ambiguous. -/
theorem references_anyOrder_iff :
    (∀ d', d.Shuffled d' → d'.references = d.references) ↔ d.LooksUpOne := by
  refine ⟨fun h => ⟨?_, ?_⟩, fun hone d' => hone.references_eq⟩
  · refine unambiguous_iff.mpr fun categories hperm => ?_
    exact congrArg References.categoryName (h _ (shuffled_withCategories hperm))
  · refine unambiguous_iff.mpr fun instructors hperm => ?_
    exact congrArg References.specialty (h _ (shuffled_withInstructors hperm))

/-! ## Reports in another order -/

/-- With the same references, each record has the same violations. -/
theorem Shuffled.check_of_references (h : d.Shuffled d') (hrefs : d'.references = d.references) :
    d'.check.checked = d.check.checked ∧ d'.check.violations.Perm d.check.violations := by
  have hrules (record : CheckedRecord Ref Date) :
      record.brokenRules (Index.ofDataset d') = record.brokenRules (Index.ofDataset d) := by
    refine record.brokenRules_congr ?_
    rw [Index.references_ofDataset, Index.references_ofDataset, hrefs]
  refine ⟨?_, ?_⟩
  · simp [h.checkedRecords.length_eq]
  · rw [check_violations, check_violations]
    simp only [hrules]
    exact h.checkedRecords.symm.flatMap_right _

/-- **The order of the records does not matter to the check.** Take a dataset whose
categories are told apart by their identifiers, and its instructors as
well, and put the records of each collection into any order. As many
records are checked, and the violations are the same ones, each as often:
by collection, record and rule, and so by what is said of them. -/
theorem check_anyOrder (hcategories : (d.categories.map (·.id)).Nodup)
    (hinstructors : (d.instructors.map (·.id)).Nodup) (h : d.Shuffled d') :
    d'.check.checked = d.check.checked ∧
      d'.check.violations.Perm d.check.violations ∧
      (d'.check.violations.map fun v => (v.collection, v.record, v.rule.message)).Perm
        (d.check.violations.map fun v => (v.collection, v.record, v.rule.message)) := by
  have hone : d.LooksUpOne := ⟨.of_nodup hcategories, .of_nodup hinstructors⟩
  obtain ⟨hchecked, hviolations⟩ := h.check_of_references (hone.references_eq h)
  exact ⟨hchecked, hviolations, hviolations.map _⟩

/-- A course on cooking that is there twice, is given by the musician although there
is a cook, and is paid for by nobody who is known. -/
def misassigned : Dataset Identifier Unit where
  categories := [⟨⟨1⟩, "Cooking", ""⟩, ⟨⟨2⟩, "Music", ""⟩]
  instructors := [⟨⟨3⟩, "Ada", "", "", "Music", "", 5, 0⟩, ⟨⟨4⟩, "Bo", "", "", "Cooking", "", 5, 0⟩]
  courses := List.replicate 2 ⟨⟨5⟩, "Bread", "", ⟨1⟩, ⟨3⟩, 10, 2, (), [], 5, 0, .beginner⟩
  payments := [⟨⟨6⟩, ⟨7⟩, ⟨5⟩, 10, "USD", (), "card", .completed, ""⟩,
    ⟨⟨8⟩, ⟨7⟩, ⟨9⟩, -10, "EUR", (), "card", .failed, ""⟩]

theorem check_anyOrder_misassigned :
    (misassigned.categories.map (·.id)).Nodup ∧ (misassigned.instructors.map (·.id)).Nodup ∧
      let reversed := Dataset.ofRecords fun c => (misassigned.records c).reverse
      misassigned.Shuffled reversed ∧
      misassigned.check.violations.map (·.record.bits.toNat) = [5, 5, 6, 8, 8, 8, 8] ∧
      reversed.check.violations.map (·.record.bits.toNat) = [5, 5, 8, 8, 8, 8, 6] ∧
      reversed.check.violations.Perm misassigned.check.violations := by
  have hcategories : (misassigned.categories.map (·.id)).Nodup := by decide
  have hinstructors : (misassigned.instructors.map (·.id)).Nodup := by decide
  have hshuffled : misassigned.Shuffled (.ofRecords fun c => (misassigned.records c).reverse) := by
    intro c
    cases c <;> exact (List.reverse_perm _).symm
  exact ⟨hcategories, hinstructors, hshuffled, by decide +kernel, by decide +kernel,
    (check_anyOrder hcategories hinstructors hshuffled).2.1⟩

end Dataset

end Academy
