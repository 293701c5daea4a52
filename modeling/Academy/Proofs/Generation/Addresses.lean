import Academy.Generation.People
import Academy.Proofs.Text.Lowercase
import Academy.Proofs.Text.Words
import Mathlib.Logic.Relation

/-!
# Addresses are made word by word

Which words a name has is settled before anything is done to its letters,
and each of them is then made small and looked up among the titles on its
own. So an address knows nothing of the gaps of the name, and a name that
is put together from two has the address parts of the one and then those
of the other (`addressWords_append_gap`).

A title can stand anywhere between the words, in letters of either case,
since it is made small before it is looked up. Two names that differ in
titles and in gaps, however many of them have been changed, have the same
address.

What has to be watched is the dot: it stands between two parts, and a
part that is missing – where a name has titles only – takes its dot with
it. This is so because a word never becomes empty when it is made small.
-/

namespace Academy

/-! ## Parts that are joined -/

theorem intercalate_append {sep : List Char} {xs ys : List (List Char)} (hxs : xs ≠ [])
    (hys : ys ≠ []) :
    sep.intercalate (xs ++ ys) = sep.intercalate xs ++ sep ++ sep.intercalate ys := by
  obtain ⟨y, ys, rfl⟩ := List.exists_cons_of_ne_nil hys
  induction xs with
  | nil => exact absurd rfl hxs
  | cons x xs ih =>
    rcases xs with _ | ⟨x', xs⟩
    · rw [List.singleton_append, List.intercalate_cons_cons, List.intercalate_singleton]
    · have htail := ih (List.cons_ne_nil x' xs)
      rw [List.cons_append] at htail ⊢
      rw [List.cons_append, List.intercalate_cons_cons, htail, List.intercalate_cons_cons]
      simp only [List.append_assoc]

/-- Parts that are something make something. -/
theorem intercalate_ne_nil {sep : List Char} {xs : List (List Char)} (hxs : xs ≠ [])
    (h : ∀ x ∈ xs, x ≠ []) : sep.intercalate xs ≠ [] := by
  obtain ⟨x, xs, rfl⟩ := List.exists_cons_of_ne_nil hxs
  have hx : x ≠ [] := h x List.mem_cons_self
  rcases xs with _ | ⟨x', xs⟩
  · rwa [List.intercalate_singleton]
  · rw [List.intercalate_cons_cons, List.append_assoc]
    exact List.append_ne_nil_of_left_ne_nil hx _

/-- Nothing is added but what is put in between. -/
theorem mem_of_mem_intercalate {sep : List Char} {xs : List (List Char)} {c : Char}
    (h : c ∈ sep.intercalate xs) : c ∈ sep ∨ ∃ x ∈ xs, c ∈ x := by
  induction xs with
  | nil => exact nomatch h
  | cons x xs ih =>
    rcases xs with _ | ⟨x', xs⟩
    · rw [List.intercalate_singleton] at h
      exact .inr ⟨x, List.mem_cons_self, h⟩
    · rw [List.intercalate_cons_cons, List.mem_append, List.mem_append] at h
      rcases h with (h | h) | h
      · exact .inr ⟨x, List.mem_cons_self, h⟩
      · exact .inl h
      · exact (ih h).imp_right fun ⟨y, hy, hc⟩ => ⟨y, List.mem_cons_of_mem x hy, hc⟩

/-! ## Words of a name -/

/-- **A gap**: blank characters, one at least. -/
def IsGap (gap : String) : Prop :=
  gap ≠ "" ∧ gap.toList.all isBlank = true

instance (gap : String) : Decidable (IsGap gap) :=
  inferInstanceAs (Decidable (_ ∧ _))

theorem IsGap.toList_ne_nil {gap : String} (h : IsGap gap) : gap.toList ≠ [] :=
  mt String.toList_eq_nil_iff.mp h.1

theorem IsGap.isBlank {gap : String} (h : IsGap gap) : ∀ c ∈ gap.toList, isBlank c = true :=
  List.all_eq_true.mp h.2

/-- A text that ends with a blank, or is nothing, goes on with new words. -/
theorem words_append_of_getLast? {a : List Char} (h : a.getLast?.all isBlank = true)
    (s : List Char) : words (a ++ s) = words a ++ words s := by
  rcases hlast : a.getLast? with _ | c
  · rw [List.getLast?_eq_none_iff.mp hlast]
    rfl
  · obtain ⟨a, rfl⟩ := List.getLast?_eq_some_iff.mp hlast
    have hc : isBlank c = true := by rwa [hlast] at h
    have hgap (s : List Char) : words (a ++ c :: s) = words a ++ words s :=
      wordsBetween_append_gap hc a s
    rw [List.append_assoc, List.singleton_append, hgap, hgap, show words [] = [] from rfl,
      List.append_nil]

/-- Before a blank, or at the end, the words are over. -/
theorem words_append_of_head? {b : List Char} (h : b.head?.all isBlank = true)
    (s : List Char) : words (s ++ b) = words s ++ words b := by
  rcases b with _ | ⟨c, b⟩
  · rw [List.append_nil, show words [] = [] from rfl, List.append_nil]
  · have hc : isBlank c = true := h
    have hgap (s : List Char) : words (s ++ c :: b) = words s ++ words b :=
      wordsBetween_append_gap hc s b
    rw [hgap, show words (c :: b) = words b from hgap []]

namespace Instructor

theorem addressWords_eq {s t : List Char} (h : words s = words t) :
    addressWords s = addressWords t := by
  unfold addressWords
  rw [h]

theorem addressWords_append {s a b : List Char} (h : words s = words a ++ words b) :
    addressWords s = addressWords a ++ addressWords b := by
  unfold addressWords
  rw [h, List.map_append, List.filter_append]

/-- **What is on both sides of a gap** makes its address parts on its own. -/
theorem addressWords_append_gap {gap : String} (hgap : IsGap gap) (a b : String) :
    addressWords (a ++ gap ++ b).toList = addressWords a.toList ++ addressWords b.toList := by
  refine addressWords_append ?_
  rw [String.toList_append, String.toList_append]
  exact wordsBetween_append_gaps_append hgap.toList_ne_nil hgap.isBlank _ _

/-- **What a part of an address consists of.** -/
theorem isLowered_of_mem_addressWords {s word : List Char} (h : word ∈ addressWords s) :
    word ≠ [] ∧ ∀ c ∈ word, IsLowered c := by
  obtain ⟨w, hw, rfl⟩ := List.mem_map.mp (List.mem_of_mem_filter h)
  obtain ⟨hne, hblank⟩ := of_mem_wordsBetween hw
  exact ⟨lowercase_ne_nil hne, fun c hc => isLowered_of_mem_lowercase hblank hc⟩

/-! ## The part before the domain -/

/-- **An address without its domain.** -/
def localPart (name : String) : String :=
  String.ofList ((emailOf name).toList.take
    ((emailOf name).length - ("@" ++ Catalog.instructorDomain).length))

theorem localPart_eq (name : String) :
    localPart name = String.ofList (['.'].intercalate (addressWords name.toList)) := by
  have hemail : (emailOf name).toList = ['.'].intercalate (addressWords name.toList)
      ++ ("@" ++ Catalog.instructorDomain).toList := by
    unfold emailOf
    rw [String.append_assoc, String.toList_append, String.toList_ofList]
  unfold localPart
  rw [← String.length_toList, ← String.length_toList, hemail, List.length_append,
    Nat.add_sub_cancel, List.take_left']
  rfl

theorem emailOf_eq (name : String) :
    emailOf name = localPart name ++ "@" ++ Catalog.instructorDomain := by
  rw [localPart_eq]
  rfl

theorem localPart_eq_empty_iff (name : String) :
    localPart name = "" ↔ addressWords name.toList = [] := by
  rw [localPart_eq, ← String.toList_eq_nil_iff, String.toList_ofList]
  constructor
  · intro h
    by_contra hne
    exact intercalate_ne_nil hne (fun w hw => (isLowered_of_mem_addressWords hw).1) h
  · intro h
    rw [h]
    rfl

/-- Two parts with a dot in between, or the one that there is. -/
def joined (x y : String) : String :=
  if x = "" then y else if y = "" then x else x ++ "." ++ y

/-- **The address of two names with a gap in between** is that of both. -/
theorem localPart_append_gap {gap : String} (hgap : IsGap gap) (a b : String) :
    localPart (a ++ gap ++ b) = joined (localPart a) (localPart b) := by
  have hwords := addressWords_append_gap hgap a b
  unfold joined
  simp only [localPart_eq_empty_iff]
  rw [localPart_eq, localPart_eq, localPart_eq, hwords]
  split
  · next ha => rw [ha, List.nil_append]
  · next ha =>
    split
    · next hb => rw [hb, List.append_nil]
    · next hb =>
      rw [intercalate_append ha hb, String.ofList_append, String.ofList_append]

/-! ## Titles -/

/-- **A title**, in letters of either case. -/
def IsTitle (word : String) : Prop :=
  word.toList.map Char.toLower ∈ ["dr.".toList, "prof.".toList]

instance (word : String) : Decidable (IsTitle word) :=
  inferInstanceAs (Decidable (_ ∈ _))

/-- The letters of a title. -/
theorem IsTitle.of_mem {word : String} (h : IsTitle word) {c : Char} (hc : c ∈ word.toList) :
    IsAscii c ∧ isBlank c = false := by
  have htitles : ∀ title ∈ ["dr.".toList, "prof.".toList],
      title.all (fun d => d.toNat < 128 && !isBlank d) = true := by decide +kernel
  have hletter := List.all_eq_true.mp (htitles _ h) _ (List.mem_map_of_mem hc)
  rw [Bool.and_eq_true, decide_eq_true_iff, Bool.not_eq_true'] at hletter
  obtain ⟨hlower, hblank⟩ := hletter
  have hascii : IsAscii c := by
    -- a capital letter that is made small is one of ASCII, and nothing else is changed
    by_cases hupper : c.isUpper = true
    · exact Nat.lt_of_le_of_lt (of_decide_eq_true hupper).2 (by decide)
    · have hsame : c.toLower = c := dif_neg (mt decide_eq_true hupper)
      rwa [hsame] at hlower
  have hall : ∀ n < 128, isBlank (Char.ofNat n).toLower = false →
      isBlank (Char.ofNat n) = false := by decide +kernel
  exact ⟨hascii, IsAscii.forall_of_forall
    (P := fun c => isBlank c.toLower = false → isBlank c = false) hall hascii hblank⟩

theorem IsTitle.words_eq {word : String} (h : IsTitle word) :
    words word.toList = [word.toList] := by
  refine wordsBetween_of_noGap (fun hnil => ?_) fun c hc => (h.of_mem hc).2
  unfold IsTitle at h
  rw [hnil] at h
  exact absurd h (by decide)

/-- **A title leaves nothing in the address.** -/
theorem IsTitle.addressWords_eq {word : String} (h : IsTitle word) :
    addressWords word.toList = [] := by
  have hlower : lowercase word.toList = word.toList.map Char.toLower :=
    lowercase_of_ascii fun c hc => (h.of_mem hc).1
  have hknown : word.toList.map Char.toLower ∈ Catalog.academicTitles.map String.toList := h
  unfold addressWords
  rw [h.words_eq, List.map_singleton, hlower, List.filter_singleton,
    List.contains_iff_mem.mpr hknown]
  rfl

/-! ## Names that differ in titles and gaps -/

/-- **A small change of a name**, which may be made in either direction. -/
inductive Retouched : String → String → Prop
  /-- Another gap stands between two parts of the name. -/
  | between (a b : String) {gap gap' : String} : IsGap gap → IsGap gap' →
    Retouched (a ++ gap ++ b) (a ++ gap' ++ b)
  /-- A gap stands before the name. -/
  | before (a : String) {gap : String} : IsGap gap → Retouched (gap ++ a) a
  /-- A gap stands after the name. -/
  | after (a : String) {gap : String} : IsGap gap → Retouched (a ++ gap) a
  /-- A title stands somewhere in the name, with gaps or the ends of the name on
  both sides. -/
  | title (a b : String) {word : String} : IsTitle word →
    a.toList.getLast?.all isBlank = true → b.toList.head?.all isBlank = true →
    Retouched (a ++ word ++ b) (a ++ b)

/-- A small change leaves the parts of the address. -/
theorem Retouched.addressWords_eq {x y : String} (h : Retouched x y) :
    addressWords x.toList = addressWords y.toList := by
  cases h with
  | between a b hgap hgap' =>
    rw [addressWords_append_gap hgap, addressWords_append_gap hgap']
  | before a hgap =>
    refine Instructor.addressWords_eq ?_
    rw [String.toList_append]
    exact wordsBetween_gaps_append hgap.isBlank _
  | after a hgap =>
    refine Instructor.addressWords_eq ?_
    rw [String.toList_append]
    exact wordsBetween_append_gaps hgap.isBlank _
  | title a b hword ha hb =>
    rw [String.toList_append, String.toList_append, String.toList_append, List.append_assoc,
      addressWords_append (words_append_of_getLast? ha _),
      addressWords_append (words_append_of_head? hb _), hword.addressWords_eq, List.nil_append,
      ← addressWords_append (words_append_of_getLast? ha _)]

/-- **Any number of small changes** leave the address. -/
theorem emailOf_eq_of_retouched {x y : String} (h : Relation.EqvGen Retouched x y) :
    emailOf x = emailOf y := by
  induction h with
  | rel x y h =>
    unfold emailOf
    rw [h.addressWords_eq]
  | refl x => rfl
  | symm x y _ ih => exact ih.symm
  | trans x y z _ _ ih ih' => exact ih.trans ih'

/-- **An address is made word by word.** It is its local part and the domain. The
local part of two names with a gap in between is that of the one and that of the
other with a dot, or the one that there is if the other is missing. So titles that
are put into a name or taken from it, in letters of either case, and other gaps
between the words and around them leave the address as it is. And no local part
has a blank or a capital letter of ASCII. -/
theorem address_wordByWord :
    (∀ name, emailOf name = localPart name ++ "@" ++ Catalog.instructorDomain) ∧
      (∀ a b gap : String, IsGap gap →
        localPart (a ++ gap ++ b) = joined (localPart a) (localPart b)) ∧
      (∀ x y, Relation.EqvGen Retouched x y → emailOf x = emailOf y) ∧
      ∀ name, ∀ c ∈ (localPart name).toList, isBlank c = false ∧ c.isUpper = false := by
  refine ⟨emailOf_eq, fun a b gap hgap => localPart_append_gap hgap a b,
    fun x y h => emailOf_eq_of_retouched h, fun name c hc => ?_⟩
  rw [localPart_eq, String.toList_ofList] at hc
  rcases mem_of_mem_intercalate hc with hdot | ⟨word, hword, hc⟩
  · obtain rfl := List.mem_singleton.mp hdot
    decide
  · exact (isLowered_of_mem_addressWords hword).2 c hc

/-- A title in the middle and other gaps; the capital letter at the end of the word
becomes a final sigma. -/
theorem address_wordByWord_titled :
    IsGap "\u00A0\t" ∧
      localPart ("Dr. Σοφια" ++ "\u00A0\t" ++ "ΟΔΥΣΣΕΥΣ") = "σοφια.οδυσσευς" ∧
      emailOf " Σοφια PROF. ΟΔΥΣΣΕΥΣ" = "σοφια.οδυσσευς@eduplatform.com" := by
  obtain ⟨-, hjoined, hretouched, -⟩ := address_wordByWord
  have hgap : IsGap "\u00A0\t" := by decide
  refine ⟨hgap, ?_, ?_⟩
  · rw [hjoined "Dr. Σοφια" "ΟΔΥΣΣΕΥΣ" _ hgap]
    decide +kernel
  · have htitle : Retouched (" Σοφια " ++ "PROF." ++ " ΟΔΥΣΣΕΥΣ") (" Σοφια " ++ " ΟΔΥΣΣΕΥΣ") :=
      .title _ _ (by decide) (by decide) (by decide)
    refine (hretouched _ _ (.rel _ _ htitle)).trans ?_
    decide +kernel

end Instructor

end Academy
