import Academy.Files.Lines
import Academy.Proofs.Records.Stored
import Mathlib.Data.List.Forall2

/-!
# Records are read line by line as they were written

The text of a record has no control characters, whatever strings are in
it: JSON escapes them. So there is no line feed in it and no carriage
return, a file of records has one line for each, and cutting the file into
lines gives these texts back without a loss. They are not blank either,
since an object begins with a brace.

Characters become bytes by UTF-8, where a byte below 32 stands for itself
only, so what is true of the characters is true of the bytes.
-/

namespace Academy

/-! ## The bytes of a text -/

theorem utf8Bytes_eq_flatMap (s : List Char) : utf8Bytes s = s.flatMap String.utf8EncodeChar := by
  show (List.utf8Encode s).data.toList = _
  rw [List.utf8Encode, List.toList_data_toByteArray]

@[simp]
theorem utf8Bytes_append (s t : List Char) : utf8Bytes (s ++ t) = utf8Bytes s ++ utf8Bytes t := by
  simp only [utf8Bytes_eq_flatMap, List.flatMap_append]

/-- **A text is found in its bytes.** -/
@[simp] theorem ofUtf8Bytes?_utf8Bytes (s : List Char) : ofUtf8Bytes? (utf8Bytes s) = some s := by
  unfold ofUtf8Bytes? utf8Bytes
  rw [Array.toArray_toList]
  show (String.fromUTF8? (String.ofList s).toByteArray).map String.toList = _
  rw [String.fromUTF8?, dif_pos (String.ofList s).isValidUTF8, Option.map_some]
  show some (String.ofList s).toList = _
  rw [String.toList_ofList]

/-- A byte that is neither a line feed nor a carriage return, nor any other
control character. -/
def PlainByte (b : UInt8) : Prop :=
  0x20 ≤ b.toNat

instance (b : UInt8) : Decidable (PlainByte b) :=
  inferInstanceAs (Decidable (_ ≤ _))

theorem plainByte_of_mem_utf8EncodeChar {c : Char} (hc : Json.NoControl c) {b : UInt8}
    (hb : b ∈ String.utf8EncodeChar c) : PlainByte b := by
  change 0x20 ≤ c.val.toNat at hc
  unfold PlainByte
  unfold String.utf8EncodeChar at hb
  dsimp only at hb
  -- the bytes of the character, by how many they are
  split at hb
  · simp only [List.mem_cons, List.not_mem_nil, or_false] at hb
    rw [hb, UInt8.toNat_ofNat']
    omega
  · split at hb
    · simp only [List.mem_cons, List.not_mem_nil, or_false] at hb
      rcases hb with rfl | rfl <;> rw [UInt8.toNat_ofNat'] <;> omega
    · split at hb
      · simp only [List.mem_cons, List.not_mem_nil, or_false] at hb
        rcases hb with rfl | rfl | rfl <;> rw [UInt8.toNat_ofNat'] <;> omega
      · simp only [List.mem_cons, List.not_mem_nil, or_false] at hb
        rcases hb with rfl | rfl | rfl | rfl <;> rw [UInt8.toNat_ofNat'] <;> omega

theorem plainByte_of_mem_utf8Bytes {s : List Char} (hs : ∀ c ∈ s, Json.NoControl c) :
    ∀ b ∈ utf8Bytes s, PlainByte b := by
  intro b hb
  rw [utf8Bytes_eq_flatMap] at hb
  obtain ⟨c, hc, hb⟩ := List.mem_flatMap.mp hb
  exact plainByte_of_mem_utf8EncodeChar (hs c hc) hb

/-! ## Lines -/

theorem linesAfter_append {line : List UInt8} (h : 0x0A ∉ line) (before bytes : List UInt8) :
    linesAfter before (line ++ bytes) = linesAfter (line.reverse ++ before) bytes := by
  induction line generalizing before with
  | nil => rfl
  | cons b line ih =>
    obtain ⟨hb, hline⟩ := not_or.mp (mt List.mem_cons.mpr h)
    rw [List.cons_append, linesAfter, if_neg (Ne.symm hb), ih hline, List.reverse_cons,
      List.append_assoc, List.singleton_append]

theorem withoutReturn_of_plain {line : List UInt8} (h : ∀ b ∈ line, PlainByte b) :
    withoutReturn line = line := by
  unfold withoutReturn
  split
  · exact absurd (h 0x0D List.mem_cons_self) (by decide)
  · rfl

/-- **Lines that are ended by line feeds are found again.** -/
theorem physicalLines_flatMap {lines : List (List UInt8)}
    (h : ∀ line ∈ lines, ∀ b ∈ line, PlainByte b) :
    physicalLines (lines.flatMap (· ++ [0x0A])) = lines := by
  induction lines with
  | nil => rfl
  | cons line lines ih =>
    have hline := h line List.mem_cons_self
    have hfeed : 0x0A ∉ line := fun hb => absurd (hline _ hb) (by decide)
    have hreverse : ∀ b ∈ line.reverse, PlainByte b := fun b hb => hline b (List.mem_reverse.mp hb)
    unfold physicalLines
    rw [List.flatMap_cons, List.append_assoc, linesAfter_append hfeed, List.singleton_append,
      linesAfter, if_pos rfl, List.append_nil, withoutReturn_of_plain hreverse,
      List.reverse_reverse]
    exact congrArg _ (ih fun l hl => h l (List.mem_cons_of_mem _ hl))

/-! ## Records -/

namespace Codec

variable {α : Type}

/-- The line of a record, without what ends it. -/
def line (c : Codec α) (a : α) : List UInt8 :=
  utf8Bytes (c.text a)

/-- **A file of records has a line for each**, ended by a line feed. -/
theorem toBytes_eq (c : Codec α) (as : List α) :
    c.toBytes as = (as.map c.line).flatMap (· ++ [0x0A]) := by
  unfold toBytes
  induction as with
  | nil => rfl
  | cons a as ih =>
    rw [List.flatMap_cons, utf8Bytes_append, utf8Bytes_append, ih]
    rfl

theorem plainByte_of_mem_line (c : Codec α) (a : α) : ∀ b ∈ c.line a, PlainByte b :=
  plainByte_of_mem_utf8Bytes (Json.noControl_of_mem_text _)

/-- A value that is written as an object. -/
def Braced (c : Codec α) (a : α) : Prop :=
  ∃ members, c.encode a = .object members

/-- A line that is a JSON object is not blank. -/
theorem ofLine_object (c : Codec α) (members : List (String × Json)) :
    c.ofLine (utf8Bytes (Json.object members).text)
      = match c.ofText (Json.object members).text with
        | .ok a => .ok (some a)
        | .error e => .error (.record e) := by
  have hblank : ¬ isBlankText (Json.object members).text = true := Bool.false_ne_true
  unfold ofLine
  rw [ofUtf8Bytes?_utf8Bytes]
  refine (if_neg hblank).trans ?_
  cases c.ofText (Json.object members).text <;> rfl

/-- **Lines are read one by one.** The number of a line is told of faults only. -/
theorem ofLines_eq_ok_iff {c : Codec α} {js : List Json} {as : List α}
    (hobjects : ∀ j ∈ js, ∃ members, j = .object members) (number : Nat) :
    c.ofLines number (js.map fun j => utf8Bytes j.text) = .ok as ↔
      List.Forall₂ (fun j a => c.ofText j.text = .ok a) js as := by
  induction js generalizing as number with
  | nil =>
    rw [List.forall₂_nil_left_iff]
    exact ⟨fun h => (Except.ok.inj h).symm, fun h => congrArg _ h.symm⟩
  | cons j js ih =>
    obtain ⟨⟨members, rfl⟩, hrest⟩ := List.forall_mem_cons.mp hobjects
    rw [List.map_cons, ofLines, ofLine_object, List.forall₂_cons_left_iff]
    cases htext : c.ofText (Json.object members).text with
    | error e => exact iff_of_false nofun fun ⟨_, _, h, _⟩ => nomatch h
    | ok a =>
      dsimp only
      cases hlines : c.ofLines (number + 1) (js.map fun j => utf8Bytes j.text) with
      | error e =>
        refine iff_of_false nofun fun ⟨_, _, _, has, _⟩ => ?_
        rw [(ih hrest (number + 1)).mpr has] at hlines
        exact nomatch hlines
      | ok found =>
        have hfound := (ih hrest (number + 1)).mp hlines
        refine ⟨fun h => ⟨a, found, rfl, hfound, (Except.ok.inj h).symm⟩, ?_⟩
        rintro ⟨b, bs, hb, hbs, rfl⟩
        rw [(ih hrest (number + 1)).mpr hbs] at hlines
        rw [← Except.ok.inj hb, ← Except.ok.inj hlines]
        rfl

/-- **A file of JSON objects is read object by object**, each being a line. -/
theorem ofBytes_eq_ok_iff {c : Codec α} {js : List Json} {as : List α}
    (hobjects : ∀ j ∈ js, ∃ members, j = .object members) :
    c.ofBytes ((js.map fun j => utf8Bytes j.text).flatMap (· ++ [0x0A])) = .ok as ↔
      List.Forall₂ (fun j a => c.ofText j.text = .ok a) js as := by
  have hplain : ∀ line ∈ js.map fun j => utf8Bytes j.text, ∀ b ∈ line, PlainByte b := by
    intro line hline
    obtain ⟨j, -, rfl⟩ := List.mem_map.mp hline
    exact plainByte_of_mem_utf8Bytes (Json.noControl_of_mem_text j)
  unfold ofBytes
  rw [physicalLines_flatMap hplain]
  exact ofLines_eq_ok_iff hobjects 1

/-- **What a file of records is read as** is what the text of each of them is
read as. -/
theorem ofBytes_toBytes_eq_ok_iff {c : Codec α} {as bs : List α}
    (hbraced : ∀ a ∈ as, c.Braced a) :
    c.ofBytes (c.toBytes as) = .ok bs ↔
      List.Forall₂ (fun a b => c.ofText (c.text a) = .ok b) as bs := by
  have hobjects : ∀ j ∈ as.map c.encode, ∃ members, j = .object members :=
    List.forall_mem_map.mpr hbraced
  have hlines : as.map c.line = (as.map c.encode).map fun j => utf8Bytes j.text := by
    rw [List.map_map]
    rfl
  rw [toBytes_eq, hlines, ofBytes_eq_ok_iff hobjects, List.forall₂_map_left_iff]
  rfl

/-- **A file of records is read as it was written.** -/
theorem ofBytes_toBytes {c : Codec α} {f : α → α} {as : List α}
    (h : ∀ a ∈ as, c.Restores a (f a) ∧ c.Braced a) :
    c.ofBytes (c.toBytes as) = .ok (as.map f) := by
  rw [ofBytes_toBytes_eq_ok_iff fun a ha => (h a ha).2, List.forall₂_map_right_iff,
    List.forall₂_same]
  exact fun a ha => (h a ha).1.ofText

end Codec

theorem Collection.braced (c : Collection) (r : Dataset.Record Identifier Instant c) :
    c.codec.Braced r := by
  cases c <;> exact ⟨_, rfl⟩

end Academy
