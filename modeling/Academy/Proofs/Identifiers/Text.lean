import Academy.Proofs.Identifiers.Allocation
import Academy.Proofs.Text.Ascii
import Academy.Proofs.Text.FixedWidth

/-!
# The text of an identifier

An identifier is written as 24 hexadecimal digits, two for each of its
bytes, and identifiers stand in the order of their texts. What is read is
a text of as many digits in letters of either case, and writing what has
been read makes the letters small.

A text need not be made of digits, or of characters of one byte, and a
reader that goes through it by pairs of bytes might cut it within a
character, or take a plus for a part of a number. Such a reader is
`Identifier.parsePairs`. It looks at the bytes before it cuts, so that
none of this happens, and it reads what is read here digit by digit.
-/

namespace Academy

/-! ## Digits -/

/-- A hexadecimal digit, in letters of either case. -/
def IsHexDigit (c : Char) : Prop :=
  ('0' ≤ c ∧ c ≤ '9') ∨ ('a' ≤ c ∧ c ≤ 'f') ∨ ('A' ≤ c ∧ c ≤ 'F')

instance (c : Char) : Decidable (IsHexDigit c) :=
  inferInstanceAs (Decidable (_ ∨ _))

/-- A hexadecimal digit as it is written. -/
def IsSmallHexDigit (c : Char) : Prop :=
  ('0' ≤ c ∧ c ≤ '9') ∨ ('a' ≤ c ∧ c ≤ 'f')

instance (c : Char) : Decidable (IsSmallHexDigit c) :=
  inferInstanceAs (Decidable (_ ∨ _))

@[simp]
theorem isSome_hexDigitValue?_iff {c : Char} : (hexDigitValue? c).isSome ↔ IsHexDigit c := by
  unfold hexDigitValue? IsHexDigit
  split
  · next h => exact iff_of_true rfl (.inl h)
  · next h =>
    split
    · next h' => exact iff_of_true rfl (.inr (.inl h'))
    · next h' =>
      split
      · next h'' => exact iff_of_true rfl (.inr (.inr h''))
      · next h'' => exact iff_of_false Bool.false_ne_true (by tauto)

theorem IsHexDigit.isAscii {c : Char} (h : IsHexDigit c) : IsAscii c := by
  rcases h with h | h | h
  · exact IsAscii.of_le (by decide : IsAscii '9') h.2
  · exact IsAscii.of_le (by decide : IsAscii 'f') h.2
  · exact IsAscii.of_le (by decide : IsAscii 'F') h.2

theorem isHexDigit_of_hexDigitValue? {c : Char} {d : Nat} (h : hexDigitValue? c = some d) :
    IsHexDigit c :=
  isSome_hexDigitValue?_iff.mp (Option.isSome_of_eq_some h)

/-- **A digit that is read is written as its small letter.** -/
theorem hexDigit_of_hexDigitValue? {c : Char} {d : Nat} (h : hexDigitValue? c = some d) :
    d < 16 ∧ hexDigit d = c.toLower := by
  have hall : ∀ n < 128, ∀ d ∈ hexDigitValue? (Char.ofNat n),
      d < 16 ∧ hexDigit d = (Char.ofNat n).toLower := by decide +kernel
  exact (isHexDigit_of_hexDigitValue? h).isAscii.forall_of_forall (P := fun c =>
    ∀ d ∈ hexDigitValue? c, d < 16 ∧ hexDigit d = c.toLower) hall d h

theorem exists_hexDigit_iff {c : Char} : (∃ d < 16, hexDigit d = c) ↔ IsSmallHexDigit c := by
  constructor
  · rintro ⟨d, hd, rfl⟩
    have hall : ∀ d < 16, IsSmallHexDigit (hexDigit d) := by decide
    exact hall d hd
  · intro h
    have hhex : IsHexDigit c := h.imp id .inl
    have hsmall : ∀ n < 128, IsSmallHexDigit (Char.ofNat n) →
        (Char.ofNat n).toLower = Char.ofNat n := by decide +kernel
    obtain ⟨d, hd⟩ := Option.isSome_iff_exists.mp (isSome_hexDigitValue?_iff.mpr hhex)
    obtain ⟨hlt, hwritten⟩ := hexDigit_of_hexDigitValue? hd
    refine ⟨d, hlt, hwritten.trans ?_⟩
    exact hhex.isAscii.forall_of_forall (P := fun c => IsSmallHexDigit c → c.toLower = c)
      hsmall h

/-! ## Numbers -/

theorem hexValueFrom?_concat (m : Nat) (s : List Char) (c : Char) :
    hexValueFrom? m (s ++ [c])
      = (hexValueFrom? m s).bind fun n => (hexDigitValue? c).map (16 * n + ·) := by
  rw [hexValueFrom?_append]
  refine congrArg _ (funext fun n => ?_)
  rw [hexValueFrom?]
  cases hexDigitValue? c <;> rfl

/-- **Digits that are read are written in small letters.** -/
theorem hexDigits_of_hexValue? {s : List Char} {n : Nat} (h : hexValue? s = some n) :
    n < 16 ^ s.length ∧ hexDigits s.length n = s.map Char.toLower := by
  unfold hexValue? at h
  induction s using List.reverseRecOn generalizing n with
  | nil =>
    obtain rfl : 0 = n := Option.some.inj h
    exact ⟨Nat.one_pos, rfl⟩
  | append_singleton s c ih =>
    rw [hexValueFrom?_concat] at h
    obtain ⟨k, hk, h⟩ := Option.bind_eq_some_iff.mp h
    obtain ⟨d, hd, rfl⟩ := Option.map_eq_some_iff.mp h
    obtain ⟨hlt, hwritten⟩ := ih hk
    obtain ⟨hd16, hdigit⟩ := hexDigit_of_hexDigitValue? hd
    have hquotient : (16 * k + d) / 16 = k := by omega
    have hremainder : (16 * k + d) % 16 = d := by omega
    rw [List.length_append, List.length_singleton, hexDigits, hquotient, hremainder, hwritten,
      hdigit, List.map_append, List.map_singleton]
    refine ⟨?_, rfl⟩
    rw [Nat.pow_succ]
    omega

@[simp] theorem isSome_hexValueFrom?_iff {s : List Char} (m : Nat) :
    (hexValueFrom? m s).isSome ↔ ∀ c ∈ s, IsHexDigit c := by
  induction s generalizing m with
  | nil => exact iff_of_true rfl nofun
  | cons c s ih =>
    rw [hexValueFrom?, List.forall_mem_cons, ← isSome_hexDigitValue?_iff]
    cases hexDigitValue? c with
    | none => exact iff_of_false Bool.false_ne_true fun h => Bool.false_ne_true h.1
    | some d => exact (ih _).trans (and_iff_right rfl).symm

/-- Bytes are digits to base 256. -/
theorem fixedWidth_bigEndian : FixedWidth 256 UInt8.ofNat bigEndian where
  base_pos := by decide
  zero _ := rfl
  succ width n := by
    rw [bigEndian]
    refine congrArg (_ ++ [·]) (UInt8.toNat_inj.mp ?_)
    rw [UInt8.toNat_ofNat', UInt8.toNat_ofNat']
    omega
  digit_lt m n hmn hn := by
    rw [UInt8.lt_iff_toNat_lt, UInt8.toNat_ofNat', UInt8.toNat_ofNat']
    omega

/-- A byte is written with two digits. -/
theorem hexDigits_two_mul (width n : Nat) :
    hexDigits (2 * width) n = (bigEndian width n).flatMap fun b => hexDigits 2 b.toNat := by
  induction width generalizing n with
  | zero => rfl
  | succ width ih =>
    have hquotient : n / 16 / 16 = n / 256 := Nat.div_div_eq_div_mul n 16 16
    have hlast : n / 16 % 16 = n % 256 / 16 % 16 := by omega
    have hremainder : n % 16 = n % 256 % 16 := by omega
    rw [Nat.mul_succ, hexDigits, hexDigits, hquotient, ih, bigEndian, List.flatMap_append,
      List.flatMap_singleton, UInt8.toNat_ofNat', List.append_assoc, hlast, hremainder]
    rfl

namespace Identifier

/-! ## Writing and order -/

/-- A text of 24 digits, in letters of either case. -/
def IsText (s : String) : Prop :=
  s.toList.length = 24 ∧ ∀ c ∈ s.toList, IsHexDigit c

/-- A text of 24 digits in small letters. -/
def IsSmallText (s : String) : Prop :=
  s.toList.length = 24 ∧ ∀ c ∈ s.toList, IsSmallHexDigit c

theorem toNat_lt (i : Identifier) : i.bits.toNat < 16 ^ 24 :=
  i.bits.isLt

@[simp] theorem toList_text (i : Identifier) : i.text.toList = hexDigits 24 i.bits.toNat :=
  String.toList_ofList

theorem toList_text_ofNat {n : Nat} (h : n < 16 ^ 24) :
    (mk (BitVec.ofNat 96 n)).text.toList = hexDigits 24 n := by
  have hmod : n % 2 ^ 96 = n := Nat.mod_eq_of_lt h
  rw [toList_text, BitVec.toNat_ofNat, hmod]

theorem toList_text_eq_flatMap (i : Identifier) :
    i.text.toList = i.bytes.flatMap fun b => hexDigits 2 b.toNat := by
  rw [toList_text, bytes_eq]
  exact hexDigits_two_mul 12 i.bits.toNat

/-- **Each text of 24 digits in small letters is that of one identifier.** -/
theorem bijOn_text : Set.BijOn text Set.univ {s | IsSmallText s} := by
  obtain ⟨hmaps, hinj, hsurj⟩ := fixedWidth_hexDigits.bijOn 24
  simp only [exists_hexDigit_iff] at hmaps hsurj
  refine ⟨fun i _ => ?_, fun i _ j _ h => ?_, fun s hs => ?_⟩
  · show _ ∧ _
    rw [toList_text]
    exact hmaps i.toNat_lt
  · have hbits : i.bits.toNat = j.bits.toNat := by
      refine hinj i.toNat_lt j.toNat_lt ?_
      simpa using congrArg String.toList h
    exact congrArg mk (BitVec.eq_of_toNat_eq hbits)
  · obtain ⟨n, hn, hwrite⟩ := hsurj hs
    refine ⟨⟨BitVec.ofNat 96 n⟩, trivial, String.toList_injective ?_⟩
    rw [toList_text_ofNat hn, hwrite]

theorem compare_lt_iff (i j : Identifier) :
    i.compare j = .lt ↔ i.bits.toNat < j.bits.toNat :=
  Nat.compare_eq_lt

/-- **Identifiers stand in the order of their texts.** -/
theorem compare_lt_iff_text (i j : Identifier) : i.compare j = .lt ↔ i.text < j.text := by
  rw [compare_lt_iff, String.lt_iff, toList_text, toList_text]
  exact (fixedWidth_hexDigits.write_lt_write_iff i.toNat_lt j.toNat_lt).symm

/-- **Identifiers stand in the order of their bytes.** -/
theorem compare_lt_iff_bytes (i j : Identifier) : i.compare j = .lt ↔ i.bytes < j.bytes := by
  rw [compare_lt_iff, bytes_eq, bytes_eq]
  exact (fixedWidth_bigEndian.write_lt_write_iff i.toNat_lt j.toNat_lt).symm

/-! ## Reading -/

/-- **What is read is written in small letters.** -/
theorem exists_parse_of_isText {s : String} (h : IsText s) :
    ∃ n i, hexValue? s.toList = some n ∧ i = mk (BitVec.ofNat 96 n) ∧ parse s = .ok i ∧
      i.text = s.toLower := by
  obtain ⟨hlength, hdigits⟩ := h
  obtain ⟨n, hn⟩ := Option.isSome_iff_exists.mp ((isSome_hexValueFrom?_iff 0).mpr hdigits)
  obtain ⟨hlt, hwritten⟩ := hexDigits_of_hexValue? hn
  rw [hlength] at hlt hwritten
  refine ⟨n, _, hn, rfl, ?_, String.toList_injective ?_⟩
  · unfold parse ofText?
    rw [if_pos hlength]
    change hexValue? s.toList = some n at hn
    rw [hn]
    rfl
  · rw [toList_text_ofNat hlt, hwritten]
    exact String.toList_map.symm

theorem parse_of_not_isText {s : String} (h : ¬ IsText s) :
    parse s = .error (.invalidIdentifier s) := by
  have hnone : ofText? s.toList = none := by
    unfold ofText?
    split
    · next hlength =>
      have hvalue : hexValue? s.toList = none := by
        refine Option.not_isSome_iff_eq_none.mp fun hsome => h ⟨hlength, ?_⟩
        exact (isSome_hexValueFrom?_iff 0).mp hsome
      rw [hvalue, Option.map_none]
    · rfl
  unfold parse
  rw [hnone]

/-! ## Reading by pairs of bytes -/

/-- A byte that is a hexadecimal digit. -/
def isHexByte (b : UInt8) : Bool :=
  (hexDigitValue? (Char.ofNat b.toNat)).isSome

/-- The byte that digits write, which a plus may stand before. -/
def byteOfHex? (s : List Char) : Option UInt8 :=
  let digits := if s.head? = some '+' then s.tail else s
  if digits.isEmpty then none
  else (hexValue? digits).bind fun n => if n < 256 then some (UInt8.ofNat n) else none

/-- The identifier of some bytes. -/
def ofBytes (bytes : List UInt8) : Identifier :=
  ⟨BitVec.ofNat 96 (bytes.foldl (fun n b => 256 * n + b.toNat) 0)⟩

/-- Reads the pair of digits at a place. There is no result if the text
cannot be cut there. -/
def readPair (s : String) (k : Nat) : ExceptT DecodeError Option UInt8 := do
  let pair ← liftM (sliceBytes? s (2 * k) (2 * k + 2))
  match byteOfHex? pair.toList with
  | some b => pure b
  | none => throw (.invalidIdentifier s)

/-- **Reads an identifier by pairs of bytes.** There is no result if the
text would have to be cut where it cannot be. -/
def parsePairs (s : String) : ExceptT DecodeError Option Identifier :=
  if (utf8Bytes s.toList).length = 24 ∧ (utf8Bytes s.toList).all isHexByte then
    ofBytes <$> (List.range 12).mapM (readPair s)
  else throw (.invalidIdentifier s)

theorem isHexByte_ofNat_iff {c : Char} (h : IsAscii c) :
    isHexByte (UInt8.ofNat c.toNat) ↔ IsHexDigit c := by
  have hbyte : (UInt8.ofNat c.toNat).toNat = c.toNat := by
    rw [UInt8.toNat_ofNat']
    exact Nat.mod_eq_of_lt (Nat.lt_trans h (by decide))
  simp [isHexByte, hbyte]

theorem toNat_lt_of_isHexByte {b : UInt8} (h : isHexByte b) : b.toNat < 128 := by
  have hascii : IsAscii (Char.ofNat b.toNat) := (isSome_hexDigitValue?_iff.mp h).isAscii
  have hvalid : b.toNat.isValidChar := .inl (Nat.lt_trans b.toNat_lt (by decide))
  unfold IsAscii at hascii
  rw [Char.ofNat, dif_pos hvalid] at hascii
  exact hascii

/-- **The bytes of a text tell whether it is one of 24 digits.** -/
theorem isText_iff_bytes {s : String} :
    IsText s ↔ (utf8Bytes s.toList).length = 24 ∧ (utf8Bytes s.toList).all isHexByte := by
  rw [List.all_eq_true]
  have hiff : (∀ c ∈ s.toList, IsAscii c) →
      (IsText s ↔ (utf8Bytes s.toList).length = 24 ∧ ∀ b ∈ utf8Bytes s.toList, isHexByte b) := by
    intro hascii
    rw [utf8Bytes_of_ascii hascii, List.length_map, List.forall_mem_map]
    exact and_congr_right fun _ => forall₂_congr fun c hc =>
      (isHexByte_ofNat_iff (hascii c hc)).symm
  constructor
  · intro h
    exact (hiff fun c hc => (h.2 c hc).isAscii).mp h
  · intro h
    exact (hiff (ascii_of_utf8Bytes fun b hb => toNat_lt_of_isHexByte (h.2 b hb))).mpr h

theorem byteOfHex?_pair {c d : Char} {x y : Nat} (hc : hexDigitValue? c = some x)
    (hd : hexDigitValue? d = some y) :
    ∃ b, byteOfHex? [c, d] = some b ∧ b.toNat = 16 * x + y := by
  have hx := (hexDigit_of_hexDigitValue? hc).1
  have hy := (hexDigit_of_hexDigitValue? hd).1
  have hplus : ¬ [c, d].head? = some '+' := by
    intro h
    obtain rfl : c = '+' := Option.some.inj h
    exact nomatch hc.symm.trans (rfl : hexDigitValue? '+' = none)
  have hvalue : hexValue? [c, d] = some (16 * x + y) := by
    rw [hexValue?, hexValueFrom?, hc, Option.bind_some, hexValueFrom?, hd, Option.bind_some,
      hexValueFrom?, Nat.mul_zero, Nat.zero_add]
  refine ⟨UInt8.ofNat (16 * x + y), ?_, ?_⟩
  · have hlt : 16 * x + y < 256 := by omega
    unfold byteOfHex?
    dsimp only
    rw [if_neg hplus, hvalue, Option.bind_some, if_pos hlt]
    rfl
  · rw [UInt8.toNat_ofNat']
    omega

/-- A text of characters of one byte can be cut behind any of them. -/
theorem readPair_of_append {s : String} {before after : List Char} {c d : Char} {k x y : Nat}
    (hs : s.toList = before ++ [c, d] ++ after) (hk : before.length = 2 * k)
    (hascii : ∀ a ∈ s.toList, IsAscii a) (hc : hexDigitValue? c = some x)
    (hd : hexDigitValue? d = some y) :
    ∃ b : UInt8, readPair s k = pure b ∧ b.toNat = 16 * x + y := by
  have hsize : ∀ t : List Char, (∀ a ∈ t, a ∈ s.toList) →
      (String.ofList t).utf8ByteSize = t.length := fun t ht => by
    rw [utf8ByteSize_ofList, utf8Bytes_of_ascii fun a ha => hascii a (ht a ha), List.length_map]
  have hstart := hsize before fun a ha => by
    rw [hs]
    exact List.mem_append_left _ (List.mem_append_left _ ha)
  have hstop := hsize (before ++ [c, d]) fun a ha => by
    rw [hs]
    exact List.mem_append_left _ ha
  have hslice := sliceBytes?_append (String.ofList before) (String.ofList [c, d])
    (String.ofList after)
  rw [← String.ofList_append, ← String.ofList_append, ← hs, String.ofList_toList, hstart, hstop,
    List.length_append, hk] at hslice
  obtain ⟨b, hb, hvalue⟩ := byteOfHex?_pair hc hd
  refine ⟨b, ?_, hvalue⟩
  unfold readPair
  rw [show 2 * k + 2 = 2 * k + [c, d].length from rfl, hslice]
  show (match byteOfHex? (String.ofList [c, d]).toList with
    | some b => pure b
    | none => throw (.invalidIdentifier s) : ExceptT DecodeError Option UInt8) = _
  rw [String.toList_ofList, hb]

/-- Pair by pair, the bytes that have been read are those of the digits
that have been passed. -/
theorem mapM_readPair {s : String} (h : IsText s) {k : Nat} (hk : k ≤ 12) :
    ∃ bytes, (List.range k).mapM (readPair s) = pure bytes ∧
      hexValue? (s.toList.take (2 * k))
        = some (bytes.foldl (fun n b => 256 * n + b.toNat) 0) := by
  induction k with
  | zero => exact ⟨[], rfl, rfl⟩
  | succ k ih =>
    obtain ⟨bytes, hbytes, hvalue⟩ := ih (Nat.le_of_succ_le hk)
    have hlength := h.1
    obtain ⟨c, d, after, hrest⟩ : ∃ c d after, s.toList.drop (2 * k) = [c, d] ++ after := by
      rw [List.drop_eq_getElem_cons (by omega), List.drop_eq_getElem_cons (by omega)]
      exact ⟨_, _, _, rfl⟩
    have hs : s.toList = s.toList.take (2 * k) ++ [c, d] ++ after := by
      rw [List.append_assoc, ← hrest, List.take_append_drop]
    have hdigit : ∀ a ∈ [c, d], IsHexDigit a := fun a ha => h.2 a <| by
      rw [hs]
      exact List.mem_append_left _ (List.mem_append_right _ ha)
    obtain ⟨x, hx⟩ := Option.isSome_iff_exists.mp
      (isSome_hexDigitValue?_iff.mpr (hdigit c List.mem_cons_self))
    obtain ⟨y, hy⟩ := Option.isSome_iff_exists.mp
      (isSome_hexDigitValue?_iff.mpr (hdigit d (List.mem_cons_of_mem _ List.mem_cons_self)))
    have hbefore : (s.toList.take (2 * k)).length = 2 * k := by
      rw [List.length_take]
      omega
    obtain ⟨b, hb, hpair⟩ :=
      readPair_of_append hs hbefore (fun a ha => (h.2 a ha).isAscii) hx hy
    refine ⟨bytes ++ [b], ?_, ?_⟩
    · rw [List.range_succ, List.mapM_append, hbytes, List.mapM_cons, hb]
      rfl
    · have htake : s.toList.take (2 * (k + 1)) = s.toList.take (2 * k) ++ [c, d] := by
        rw [Nat.mul_succ, List.take_add, hrest]
        rfl
      rw [htake, hexValue?, hexValueFrom?_append, ← hexValue?, hvalue, Option.bind_some,
        hexValueFrom?, hx, Option.bind_some, hexValueFrom?, hy, Option.bind_some, hexValueFrom?,
        List.foldl_append, List.foldl_cons, List.foldl_nil, hpair]
      refine congrArg some ?_
      omega

/-- **A reader by pairs of bytes reads what is read digit by digit**, and
never cuts a text where it cannot be cut. -/
@[simp] theorem run_parsePairs (s : String) : (parsePairs s).run = some (parse s) := by
  unfold parsePairs
  by_cases h : IsText s
  · obtain ⟨n, i, hn, rfl, hparse, -⟩ := exists_parse_of_isText h
    obtain ⟨bytes, hbytes, hvalue⟩ := mapM_readPair h (Nat.le_refl 12)
    rw [List.take_of_length_le h.1.le, hn] at hvalue
    rw [if_pos (isText_iff_bytes.mp h), hbytes, hparse, Option.some.inj hvalue]
    rfl
  · rw [if_neg fun hbytes => h (isText_iff_bytes.mpr hbytes), parse_of_not_isText h]
    rfl

/-- **Identifiers and their texts.** Each text of 24 digits in small
letters is that of one identifier, and it is made of two digits for each
byte; identifiers stand in the order of their bytes and of their texts.
Every text is read without cutting it where it cannot be cut: 24 digits in
letters of either case give the identifier whose text is theirs in small
letters, and any other text is refused as it is. -/
theorem text_exact :
    Set.BijOn text Set.univ {s | IsSmallText s} ∧
    (∀ i : Identifier, i.text.toList = i.bytes.flatMap fun b => hexDigits 2 b.toNat) ∧
    (∀ i j : Identifier,
      (i.compare j = .lt ↔ i.text < j.text) ∧ (i.compare j = .lt ↔ i.bytes < j.bytes)) ∧
    ∀ s : String, (parsePairs s).run = some (parse s) ∧
      ((IsText s ∧ ∃ i : Identifier, parse s = .ok i ∧ i.text = s.toLower) ∨
        (¬ IsText s ∧ parse s = .error (.invalidIdentifier s))) := by
  refine ⟨bijOn_text, toList_text_eq_flatMap, fun i j => ?_, fun s => ⟨run_parsePairs s, ?_⟩⟩
  · exact ⟨compare_lt_iff_text i j, compare_lt_iff_bytes i j⟩
  · by_cases h : IsText s
    · obtain ⟨n, i, -, -, hparse, htext⟩ := exists_parse_of_isText h
      exact .inl ⟨h, i, hparse, htext⟩
    · exact .inr ⟨h, parse_of_not_isText h⟩

end Identifier

end Academy
