import Academy.Files.Lines
import Academy.Proofs.Files.Lines
import Academy.Text.Utf8

/-!
# Characters of one byte

A character below 128 is one byte, and that byte is its number; the bytes
of any other character are all 128 and more. So a text of such characters
has as many bytes as characters, it can be cut at any byte, and that its
bytes are below 128 says that its characters are.

Where a text can be cut depends on its characters, so cutting it at a
number of bytes may fail: `sliceBytes?` is `none` where a cut would be
within a character or behind the end.
-/

namespace Academy

/-- A character of one byte. -/
def IsAscii (c : Char) : Prop :=
  c.toNat < 128

instance (c : Char) : Decidable (IsAscii c) :=
  inferInstanceAs (Decidable (_ < _))

/-- A fact about characters of one byte is a fact about 128 of them. -/
theorem IsAscii.forall_of_forall {P : Char → Prop} (h : ∀ n < 128, P (Char.ofNat n)) {c : Char}
    (hc : IsAscii c) : P c := by
  rw [← Char.ofNat_toNat c]
  exact h _ hc

theorem IsAscii.of_le {c d : Char} (hd : IsAscii d) (h : c ≤ d) : IsAscii c :=
  (UInt32.le_iff_toNat_le.mp (Char.le_def.mp h)).trans_lt hd

theorem isAscii_of_isAlphanum {c : Char} (h : c.isAlphanum = true) : IsAscii c := by
  unfold Char.isAlphanum Char.isAlpha Char.isUpper Char.isLower Char.isDigit at h
  simp only [Bool.or_eq_true, Bool.and_eq_true, decide_eq_true_iff] at h
  rcases h with (⟨-, h⟩ | ⟨-, h⟩) | ⟨-, h⟩
  · exact IsAscii.of_le (by decide : IsAscii 'Z') h
  · exact IsAscii.of_le (by decide : IsAscii 'z') h
  · exact IsAscii.of_le (by decide : IsAscii '9') h

/-! ## Bytes -/

theorem IsAscii.utf8EncodeChar {c : Char} (h : IsAscii c) :
    String.utf8EncodeChar c = [UInt8.ofNat c.toNat] := by
  have hval : c.val.toNat ≤ 0x7F := Nat.le_of_lt_succ h
  unfold String.utf8EncodeChar
  dsimp only
  rw [if_pos hval]
  rfl

/-- The bytes of other characters are all 128 and more. -/
theorem le_of_mem_utf8EncodeChar {c : Char} (h : ¬ IsAscii c) {b : UInt8}
    (hb : b ∈ String.utf8EncodeChar c) : 128 ≤ b.toNat := by
  have hval : ¬ c.val.toNat ≤ 0x7F := fun hle => h (Nat.lt_succ_of_le hle)
  unfold String.utf8EncodeChar at hb
  dsimp only at hb
  rw [if_neg hval] at hb
  split at hb
  · simp only [List.mem_cons, List.not_mem_nil, or_false] at hb
    rcases hb with rfl | rfl <;> rw [UInt8.toNat_ofNat'] <;> omega
  · split at hb
    · simp only [List.mem_cons, List.not_mem_nil, or_false] at hb
      rcases hb with rfl | rfl | rfl <;> rw [UInt8.toNat_ofNat'] <;> omega
    · simp only [List.mem_cons, List.not_mem_nil, or_false] at hb
      rcases hb with rfl | rfl | rfl | rfl <;> rw [UInt8.toNat_ofNat'] <;> omega

theorem utf8Bytes_of_ascii {s : List Char} (h : ∀ c ∈ s, IsAscii c) :
    utf8Bytes s = s.map fun c => UInt8.ofNat c.toNat := by
  rw [utf8Bytes_eq_flatMap, List.map_eq_flatMap]
  exact List.flatMap_congr fun c hc => (h c hc).utf8EncodeChar

/-- **The characters are of one byte if all bytes are below 128.** -/
theorem ascii_of_utf8Bytes {s : List Char} (h : ∀ b ∈ utf8Bytes s, b.toNat < 128) :
    ∀ c ∈ s, IsAscii c := by
  intro c hc
  by_contra hnot
  obtain ⟨b, hb⟩ := List.exists_mem_of_ne_nil _ (String.utf8EncodeChar_ne_nil (c := c))
  have hlt : b.toNat < 128 := by
    refine h b ?_
    rw [utf8Bytes_eq_flatMap]
    exact List.mem_flatMap.mpr ⟨c, hc, hb⟩
  exact absurd hlt (Nat.not_lt.mpr (le_of_mem_utf8EncodeChar hnot hb))

/-- **A text of such characters is read from its bytes** without a
replacement. -/
theorem decodeReplacing_utf8Bytes {s : List Char} (h : ∀ c ∈ s, IsAscii c) :
    decodeReplacing (utf8Bytes s) = s := by
  rw [utf8Bytes_of_ascii h]
  induction s with
  | nil => rfl
  | cons c s ih =>
    have hc : c.toNat < 128 := h c List.mem_cons_self
    have hbyte : (UInt8.ofNat c.toNat).toNat = c.toNat := by
      rw [UInt8.toNat_ofNat']
      omega
    have hbegin : beginChar (UInt8.ofNat c.toNat).toNat = ([c], none) := by
      rw [hbyte, beginChar, if_pos hc, Char.ofNat_toNat]
    rw [List.map_cons, decodeReplacing, decodeFrom, hbegin]
    exact congrArg (c :: ·) (ih fun d hd => h d (List.mem_cons_of_mem c hd))

theorem utf8ByteSize_ofList (s : List Char) :
    (String.ofList s).utf8ByteSize = (utf8Bytes s).length :=
  rfl

/-! ## Cuts -/

/-- **The part of a text between two numbers of bytes**, if the text can be
cut there. -/
def sliceBytes? (s : String) (start stop : Nat) : Option String := do
  let p ← s.pos? ⟨start⟩
  let q ← s.pos? ⟨stop⟩
  (s.slice? p q).map String.Slice.copy

theorem pos?_of_splits {s before after : String} {p : s.Pos} (h : p.Splits before after) :
    s.pos? ⟨before.utf8ByteSize⟩ = some p := by
  have hoffset : (⟨before.utf8ByteSize⟩ : String.Pos.Raw) = p.offset :=
    h.offset_eq_rawEndPos.symm
  have hvalid : p.offset.isValidForSlice s.toSlice = true :=
    String.Pos.Raw.isValidForSlice_eq_true_iff.mpr p.isValid.toSlice
  unfold String.pos? String.Slice.pos?
  rw [hoffset, dif_pos hvalid]
  rfl

/-- **Between its parts a text can be cut.** -/
theorem sliceBytes?_append (before part after : String) :
    sliceBytes? (before ++ part ++ after) before.utf8ByteSize (before ++ part).utf8ByteSize
      = some part := by
  have hassoc : before ++ part ++ after = before ++ (part ++ after) := String.append_assoc
  have hstart := String.Pos.splits_ofEqAppend hassoc
  have hstop := String.Pos.splits_ofEqAppend (rfl : before ++ part ++ after = _)
  obtain ⟨hle, hcopy⟩ := String.copy_slice_eq_iff_splits.mpr ⟨before, after, hstart, hstop⟩
  unfold sliceBytes?
  rw [pos?_of_splits hstart, pos?_of_splits hstop]
  show (String.slice? _ _ _).map _ = _
  rw [String.slice?, dif_pos hle, Option.map_some, hcopy]

end Academy
