import Academy.Proofs.Text.Ascii
import Academy.Text.Words
import Academy.Text.Lowercase

/-!
# What lower case consists of

Each character becomes one or two others, whatever stands around it, so
that a text which is something stays something. What a character becomes
is never a capital letter of ASCII, and it is blank only if the character
is. For the characters of ASCII this is looked up; for the others it is a
fact about the ranges of the two tables, since the small letters of a run
make up a range themselves and none of these meets a range of blanks.
-/

namespace Academy

/-- Without letters beyond ASCII, each letter is made a small one on its own. -/
theorem lowercase_of_ascii {s : List Char} (h : ∀ c ∈ s, c.toNat < 0x80) :
    lowercase s = s.map Char.toLower := by
  have hfrom : ∀ before, lowerFrom before s = s.map Char.toLower := by
    induction s with
    | nil => exact fun _ => rfl
    | cons c s ih =>
      intro before
      have hc : c.toNat < 0x80 := h c List.mem_cons_self
      have hlower : lowerChar c = [c.toLower] := if_pos hc
      rw [lowerFrom, if_neg (by omega), hlower, ih fun c hc => h c (List.mem_cons_of_mem _ hc)]
      rfl
  exact hfrom []

/-! ## Single characters -/

/-- **A character of lower case**: it is not blank, and it is no capital letter of
ASCII. -/
def IsLowered (c : Char) : Prop :=
  isBlank c = false ∧ c.isUpper = false

instance (c : Char) : Decidable (IsLowered c) :=
  inferInstanceAs (Decidable (_ ∧ _))

/-- Whether a character is one of lower case is told by its number. -/
theorem isLowered_iff {c : Char} :
    IsLowered c ↔ inRanges ((0x41, 0x5A) :: blankRanges) c.toNat = false := by
  have hupper : c.isUpper = decide (0x41 ≤ c.toNat ∧ c.toNat ≤ 0x5A) := rfl
  unfold IsLowered isBlank
  rw [hupper, inRanges, inRanges, List.any_cons, Bool.or_eq_false_iff, Bool.decide_and, and_comm]

theorem isLowered_ofNat {n : Nat} (h : inRanges ((0x41, 0x5A) :: blankRanges) n = false) :
    IsLowered (Char.ofNat n) := by
  rw [isLowered_iff]
  by_cases hvalid : n.isValidChar
  · rw [show Char.ofNat n = Char.ofNatAux n hvalid from dif_pos hvalid]
    exact h
  · rw [show Char.ofNat n = _ from dif_neg hvalid]
    decide

/-- **The small letters of a run** meet neither the capital letters of ASCII nor
the blanks. -/
theorem capitalRuns_apart : ∀ run ∈ capitalRuns, 0 ≤ (run.1 : Int) + run.2.2.2 ∧
    ∀ range ∈ (0x41, 0x5A) :: blankRanges,
      (run.2.1 : Int) + run.2.2.2 < range.1 ∨ (range.2 : Int) < run.1 + run.2.2.2 := by
  decide +kernel

/-- **A character that is not blank becomes characters of lower case.** -/
theorem isLowered_of_mem_lowerChar {c d : Char} (hc : isBlank c = false)
    (hd : d ∈ lowerChar c) : IsLowered d := by
  unfold lowerChar at hd
  split at hd
  · next hascii =>
    obtain rfl := List.mem_singleton.mp hd
    have hall : ∀ n < 128, isBlank (Char.ofNat n) = false → IsLowered (Char.ofNat n).toLower := by
      decide +kernel
    exact IsAscii.forall_of_forall (P := fun c => isBlank c = false → IsLowered c.toLower) hall
      hascii hc
  · next hascii =>
    split at hd
    · exact List.forall_mem_cons.mpr ⟨by decide, List.forall_mem_singleton.mpr (by decide)⟩ d hd
    · split at hd
      · next first last step distance hfind =>
        obtain rfl := List.mem_singleton.mp hd
        have hrun := List.find?_some hfind
        rw [Bool.and_eq_true, Bool.and_eq_true, decide_eq_true_iff, decide_eq_true_iff] at hrun
        refine isLowered_ofNat (List.any_eq_false.mpr fun range hrange => ?_)
        obtain ⟨hnat, hapart⟩ := capitalRuns_apart _ (List.mem_of_find?_eq_some hfind)
        have hrange := hapart range hrange
        dsimp only at hnat hrange
        rw [Bool.and_eq_true, decide_eq_true_iff, decide_eq_true_iff]
        omega
      · obtain rfl := List.mem_singleton.mp hd
        refine ⟨hc, decide_eq_false fun hupper => hascii ?_⟩
        exact Nat.lt_of_le_of_lt hupper.2 (by decide)

theorem lowerChar_ne_nil (c : Char) : lowerChar c ≠ [] := by
  unfold lowerChar
  split
  · exact List.cons_ne_nil _ _
  · split
    · exact List.cons_ne_nil _ _
    · split <;> exact List.cons_ne_nil _ _

/-! ## Texts -/

/-- **What is lowered is not blank and has no capital letters of ASCII**, if it was
not blank before. -/
theorem isLowered_of_mem_lowercase {s : List Char} (h : ∀ c ∈ s, isBlank c = false) {d : Char}
    (hd : d ∈ lowercase s) : IsLowered d := by
  unfold lowercase at hd
  generalize [] = before at hd
  induction s generalizing before with
  | nil => exact nomatch hd
  | cons c s ih =>
    obtain ⟨hc, hs⟩ := List.forall_mem_cons.mp h
    rw [lowerFrom] at hd
    rcases List.mem_append.mp hd with hd | hd
    · split at hd
      · obtain rfl := List.mem_singleton.mp hd
        split <;> decide
      · exact isLowered_of_mem_lowerChar hc hd
    · exact ih hs _ hd

/-- **A text that is something stays something.** -/
theorem lowercase_ne_nil {s : List Char} (h : s ≠ []) : lowercase s ≠ [] := by
  obtain ⟨c, s, rfl⟩ := List.exists_cons_of_ne_nil h
  unfold lowercase
  rw [lowerFrom]
  refine List.append_ne_nil_of_left_ne_nil ?_ _
  split
  · exact List.cons_ne_nil _ _
  · exact lowerChar_ne_nil c

end Academy
