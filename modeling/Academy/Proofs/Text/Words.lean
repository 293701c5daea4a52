import Academy.Text.Words

/-!
# A gap ends a word

Words are told apart by gaps and by nothing else: where a text is put
together with a gap in between, its words are those of the one part and
then those of the other. How the text goes on after the gap is therefore
of no importance to the words before it, and a gap that is made longer,
or put at the beginning or at the end, is not seen.
-/

namespace Academy

variable {isGap : Char → Bool}

theorem leadingWord_of_noGap {s : List Char} (h : ∀ c ∈ s, isGap c = false) :
    leadingWord isGap s = (s, []) := by
  induction s with
  | nil => rfl
  | cons c s ih =>
    rw [leadingWord, ih fun c hc => h c (List.mem_cons_of_mem _ hc)]
    dsimp only
    rw [h c List.mem_cons_self, if_neg Bool.false_ne_true]

/-- A text without gaps is one word, if it is something. -/
theorem wordsBetween_of_noGap {s : List Char} (hne : s ≠ []) (h : ∀ c ∈ s, isGap c = false) :
    wordsBetween isGap s = [s] := by
  unfold wordsBetween
  rw [leadingWord_of_noGap h]
  exact if_neg (mt List.isEmpty_iff.mp hne)

/-- What comes after a gap leaves the leading word as it is. -/
theorem leadingWord_append_gap {gap : Char} (hgap : isGap gap = true) (s t : List Char) :
    leadingWord isGap (s ++ gap :: t)
      = ((leadingWord isGap s).1, (leadingWord isGap s).2 ++ wordsBetween isGap t) := by
  induction s with
  | nil => exact if_pos hgap
  | cons c s ih =>
    rw [List.cons_append, leadingWord, ih, leadingWord]
    -- a gap closes the word after it, and that may be empty
    by_cases hc : isGap c = true
    · dsimp only
      rw [if_pos hc, if_pos hc]
      split <;> rfl
    · dsimp only
      rw [if_neg hc, if_neg hc]

/-- **A gap ends a word**, and the words after it do not depend on those before. -/
theorem wordsBetween_append_gap {gap : Char} (hgap : isGap gap = true) (s t : List Char) :
    wordsBetween isGap (s ++ gap :: t) = wordsBetween isGap s ++ wordsBetween isGap t := by
  have hwords (s : List Char) : wordsBetween isGap s
      = if (leadingWord isGap s).1.isEmpty then (leadingWord isGap s).2
        else (leadingWord isGap s).1 :: (leadingWord isGap s).2 := rfl
  rw [hwords (s ++ gap :: t), leadingWord_append_gap hgap, hwords s]
  split <;> rfl

/-- Gaps at the beginning are not seen. -/
theorem wordsBetween_gaps_append {gaps : List Char} (hgaps : ∀ c ∈ gaps, isGap c = true)
    (s : List Char) : wordsBetween isGap (gaps ++ s) = wordsBetween isGap s := by
  induction gaps with
  | nil => rfl
  | cons gap gaps ih =>
    obtain ⟨hgap, hgaps⟩ := List.forall_mem_cons.mp hgaps
    exact (wordsBetween_append_gap hgap [] (gaps ++ s)).trans (ih hgaps)

/-- **Any gaps, one at least, do the same as one.** -/
theorem wordsBetween_append_gaps_append {gaps : List Char} (hne : gaps ≠ [])
    (hgaps : ∀ c ∈ gaps, isGap c = true) (s t : List Char) :
    wordsBetween isGap (s ++ gaps ++ t) = wordsBetween isGap s ++ wordsBetween isGap t := by
  obtain ⟨gap, gaps, rfl⟩ := List.exists_cons_of_ne_nil hne
  obtain ⟨hgap, hgaps⟩ := List.forall_mem_cons.mp hgaps
  rw [List.append_assoc, List.cons_append, wordsBetween_append_gap hgap,
    wordsBetween_gaps_append hgaps]

/-- Gaps at the end are not seen. -/
theorem wordsBetween_append_gaps {gaps : List Char} (hgaps : ∀ c ∈ gaps, isGap c = true)
    (s : List Char) : wordsBetween isGap (s ++ gaps) = wordsBetween isGap s := by
  by_cases hne : gaps = []
  · rw [hne, List.append_nil]
  · have h := wordsBetween_append_gaps_append hne hgaps s []
    rwa [List.append_nil, show wordsBetween isGap [] = [] from rfl, List.append_nil] at h

/-- The leading word has no gaps, and the words after it are words. -/
theorem leadingWord_spec (isGap : Char → Bool) (s : List Char) :
    (∀ c ∈ (leadingWord isGap s).1, isGap c = false) ∧
      ∀ word ∈ (leadingWord isGap s).2, word ≠ [] ∧ ∀ c ∈ word, isGap c = false := by
  induction s with
  | nil => exact ⟨nofun, nofun⟩
  | cons c s ih =>
    obtain ⟨hfirst, hrest⟩ := ih
    rw [leadingWord]
    by_cases hc : isGap c = true
    · dsimp only
      rw [if_pos hc]
      refine ⟨nofun, ?_⟩
      split
      · exact hrest
      · next hne =>
        exact List.forall_mem_cons.mpr ⟨⟨mt List.isEmpty_iff.mpr hne, hfirst⟩, hrest⟩
    · dsimp only
      rw [if_neg hc]
      exact ⟨List.forall_mem_cons.mpr ⟨Bool.eq_false_iff.mpr hc, hfirst⟩, hrest⟩

/-- **A word is not empty and has no gaps.** -/
theorem of_mem_wordsBetween {s word : List Char} (h : word ∈ wordsBetween isGap s) :
    word ≠ [] ∧ ∀ c ∈ word, isGap c = false := by
  obtain ⟨hfirst, hrest⟩ := leadingWord_spec isGap s
  unfold wordsBetween at h
  dsimp only at h
  split at h
  · exact hrest word h
  · next hne =>
    rcases List.mem_cons.mp h with rfl | h
    · exact ⟨mt List.isEmpty_iff.mpr hne, hfirst⟩
    · exact hrest word h

end Academy
