import Academy.Proofs.Json.Numeral

/-!
# Literals and how they are written

A string, a numeral or a word can be written in more than one way: a
character as itself or escaped, a number with zeros, a point or an
exponent. What the reader makes of each way is said here, for every text
that JSON has for them and not only for the texts that are written by
this program.

All of them are read alike wherever they stand. A string ends with its
quote and a word with its last letter, and a numeral is told from what
comes after it.
-/

namespace Academy

/-! ## Strings -/

/-- The letters that may follow a backslash, with the characters they stand
for. -/
def escapeLetters : List (Char × Char) :=
  [('"', '"'), ('\\', '\\'), ('/', '/'), ('b', Char.ofNat 0x8), ('f', Char.ofNat 0xC), ('n', '\n'),
    ('r', '\r'), ('t', '\t')]

namespace StringPiece

/-- **How a piece of a string is spelled**: a character as itself or by a letter
after a backslash, and half a character's worth of UTF-16 by four digits. -/
inductive SpelledAs : StringPiece → List Char → Prop
  | plain {c : Char} : c ≠ '"' → c ≠ '\\' → 0x20 ≤ c.toNat → SpelledAs (.char c) [c]
  | letter {l c : Char} : (l, c) ∈ escapeLetters → SpelledAs (.char c) ['\\', l]
  | digits {a b c d : Char} {n : Nat} : hexValue? [a, b, c, d] = some n →
    SpelledAs (.unit n) ['\\', 'u', a, b, c, d]

theorem readString_plain {c : Char} (hquote : c ≠ '"') (hbackslash : c ≠ '\\')
    (hcontrol : 0x20 ≤ c.toNat) (s : List Char) :
    readString (c :: s) = (.char c :: (readString s).1, (readString s).2) := by
  rw [readString.eq_def]
  split
  · next heq => exact nomatch heq
  · next heq => exact absurd (List.cons.inj heq).1 hquote
  · next heq => exact absurd (List.cons.inj heq).1 hbackslash
  · next heq => exact absurd (List.cons.inj heq).1 hbackslash
  · next heq => exact absurd (List.cons.inj heq).1 hbackslash
  · next heq => exact absurd (List.cons.inj heq).1 hbackslash
  · next heq =>
    obtain ⟨rfl, rfl⟩ := List.cons.inj heq
    rw [if_neg (Nat.not_lt.mpr hcontrol)]

/-- **A piece is read off a string as it is spelled.** -/
theorem SpelledAs.readString {piece : StringPiece} {t : List Char} (h : piece.SpelledAs t)
    (s : List Char) :
    readString (t ++ s) = (piece :: (readString s).1, (readString s).2) := by
  cases h with
  | plain hquote hbackslash hcontrol => exact readString_plain hquote hbackslash hcontrol s
  | letter h =>
    simp only [escapeLetters, List.mem_cons, Prod.mk.injEq, List.not_mem_nil, or_false] at h
    rcases h with ⟨rfl, rfl⟩ | ⟨rfl, rfl⟩ | ⟨rfl, rfl⟩ | ⟨rfl, rfl⟩ | ⟨rfl, rfl⟩ | ⟨rfl, rfl⟩ |
      ⟨rfl, rfl⟩ | ⟨rfl, rfl⟩ <;> rfl
  | digits h =>
    show Academy.readString ('\\' :: 'u' :: _ :: _ :: _ :: _ :: s) = _
    rw [Academy.readString, h]

/-- The piece that a character is written as: a control that has no letter is a
unit. -/
def ofChar (c : Char) : StringPiece :=
  if c.toNat < 0x20 ∧ c ∉ escapeLetters.map Prod.snd then .unit c.toNat else .char c

theorem ofChar_of_mem {c : Char} (h : c ∈ escapeLetters.map Prod.snd) : ofChar c = .char c :=
  if_neg fun hunit => hunit.2 h

/-- **A character is written as its piece.** -/
theorem spelledAs_escapedChar (c : Char) : (ofChar c).SpelledAs (Json.escapedChar c) := by
  have hletter : ∀ p ∈ escapeLetters, (ofChar p.2).SpelledAs ['\\', p.1] := fun p hp =>
    ofChar_of_mem (List.mem_map_of_mem hp) ▸ .letter hp
  unfold Json.escapedChar
  split
  · next h => exact h ▸ hletter ('"', '"') (by decide)
  split
  · next h => exact h ▸ hletter ('\\', '\\') (by decide)
  split
  · next h =>
    rw [← Char.ofNat_toNat c, h]
    exact hletter ('b', _) (by decide)
  split
  · next h =>
    rw [← Char.ofNat_toNat c, h]
    exact hletter ('f', _) (by decide)
  split
  · next h => exact h ▸ hletter ('n', '\n') (by decide)
  split
  · next h => exact h ▸ hletter ('r', '\r') (by decide)
  split
  · next h => exact h ▸ hletter ('t', '\t') (by decide)
  split
  · next hquote hbackslash hb hf hn hr ht hcontrol =>
    have hnone : c ∉ escapeLetters.map Prod.snd := by
      intro h
      simp only [escapeLetters, List.map_cons, List.map_nil, List.mem_cons, List.not_mem_nil,
        or_false] at h
      rcases h with h | h | h | h | h | h | h | h
      · exact hquote h
      · exact hbackslash h
      · exact absurd hcontrol (h ▸ by decide)
      · exact hb (h ▸ by decide)
      · exact hf (h ▸ by decide)
      · exact hn h
      · exact hr h
      · exact ht h
    have hvalue : hexValue? (hexDigits 4 c.toNat) = some c.toNat :=
      hexValue?_hexDigits (hcontrol.trans (by decide))
    rw [ofChar, if_pos ⟨hcontrol, hnone⟩]
    exact .digits hvalue
  · next hquote hbackslash _ _ _ _ _ hcontrol =>
    rw [ofChar, if_neg fun h => hcontrol h.1]
    exact .plain hquote hbackslash (Nat.not_lt.mp hcontrol)

/-- The piece of a character is worth the character. -/
@[simp] theorem piecesText_ofChar (c : Char) (stop : Option Fault) (pieces : List StringPiece) :
    piecesText stop (ofChar c :: pieces) = (piecesText stop pieces).map (c :: ·) := by
  unfold ofChar
  split
  · next h =>
    -- the units of controls are below the surrogates
    rw [piecesText.eq_def]
    dsimp only
    rw [if_neg (by omega), if_pos (by omega), Char.ofNat_toNat]
  · rfl

end StringPiece

/-- **A string as it is written**, piece by piece. -/
structure StringLiteral where
  /-- Its pieces with their spellings. -/
  pieces : List (StringPiece × List Char)
  /-- The spellings are those of the pieces. -/
  spelled : ∀ p ∈ pieces, p.1.SpelledAs p.2

namespace StringLiteral

/-- What is between the quotes. -/
def body (l : StringLiteral) : List Char :=
  l.pieces.flatMap Prod.snd

/-- The text of a string as it is written. -/
def text (l : StringLiteral) : List Char :=
  '"' :: (l.body ++ ['"'])

/-- The string, if its pieces have a text. -/
def used (l : StringLiteral) : Except Fault String :=
  (piecesText none (l.pieces.map Prod.fst)).map String.ofList

/-- **A string is read as it is written.** -/
@[simp] theorem readText_body (l : StringLiteral) (rest : List Char) :
    readText (l.body ++ '"' :: rest) = (l.used, none, rest) := by
  obtain ⟨pieces, hspelled⟩ := l
  have hread : readString (pieces.flatMap Prod.snd ++ '"' :: rest)
      = (pieces.map Prod.fst, none, rest) := by
    induction pieces with
    | nil => rfl
    | cons p pieces ih =>
      obtain ⟨hp, hpieces⟩ := List.forall_mem_cons.mp hspelled
      rw [List.flatMap_cons, List.append_assoc, hp.readString, ih hpieces]
      rfl
  unfold readText
  rw [show body ⟨pieces, hspelled⟩ = pieces.flatMap Prod.snd from rfl, hread]
  rfl

/-- A string with the escapes that are necessary. -/
def ofString (s : String) : StringLiteral where
  pieces := s.toList.map fun c => (.ofChar c, Json.escapedChar c)
  spelled := List.forall_mem_map.mpr fun c _ => StringPiece.spelledAs_escapedChar c

@[simp]
theorem body_ofString (s : String) : (ofString s).body = s.toList.flatMap Json.escapedChar := by
  show (s.toList.map _).flatMap _ = _
  rw [List.flatMap_map]

@[simp] theorem text_ofString (s : String) : (ofString s).text = Json.stringText s := by
  simp [text, Json.stringText]

@[simp] theorem used_ofString (s : String) : (ofString s).used = .ok s := by
  have hworth : ∀ cs : List Char, piecesText none (cs.map StringPiece.ofChar) = .ok cs := by
    intro cs
    induction cs with
    | nil => rfl
    | cons c cs ih =>
      simp [ih, Except.map]
  have hpieces : (ofString s).pieces.map Prod.fst = s.toList.map StringPiece.ofChar := by
    show (s.toList.map _).map _ = _
    rw [List.map_map]
    rfl
  rw [used, hpieces, hworth]
  show Except.ok (String.ofList s.toList) = _
  rw [String.ofList_toList]

end StringLiteral

/-! ## Values without parts -/

/-- **A value without parts as it is written.** -/
inductive Literal
  | null
  | bool (b : Bool)
  | numeral (s : List Char) (h : ∃ n : Numeral, n.WrittenAs s)
  | string (l : StringLiteral)

namespace Literal

/-- The text of a value without parts. -/
def text : Literal → List Char
  | .null => ['n', 'u', 'l', 'l']
  | .bool true => ['t', 'r', 'u', 'e']
  | .bool false => ['f', 'a', 'l', 's', 'e']
  | .numeral s _ => s
  | .string l => l.text

/-- What a value without parts is read as. -/
def reading : Literal → Reading
  | .null => .scalar (.ok .null) none
  | .bool b => .scalar (.ok (.bool b)) none
  | .numeral s _ => (readNumeral s).1
  | .string l => .string l.used none

@[simp] theorem reading_stop (l : Literal) : l.reading.stop = none := by
  cases l with
  | numeral s h =>
    obtain ⟨n, hn⟩ := h
    obtain ⟨used, hused⟩ := numeralReading_eq n
    show (readNumeral s).1.stop = none
    rw [hn.readNumeral, hused]
    rfl
  | _ => rfl

end Literal

/-- A numeral begins with a minus or a digit. -/
theorem Numeral.WrittenAs.head {n : Numeral} {s : List Char} (h : n.WrittenAs s) :
    ∃ c t, s = c :: t ∧ (c = '-' ∨ c.isDigit = true) := by
  cases h with
  | @parts negative whole fraction point e exponent hwhole hpoint he =>
    cases negative with
    | true => exact ⟨'-', _, rfl, .inl rfl⟩
    | false =>
      rcases hhead : whole with _ | ⟨c, t⟩
      · exact absurd hhead hwhole.ne_nil
      · exact ⟨c, _, rfl, .inr (hwhole.isDigit c (hhead ▸ List.mem_cons_self))⟩

theorem isNumeralChar_of_head {c : Char} (h : c = '-' ∨ c.isDigit = true) : IsNumeralChar c := by
  rcases h with rfl | hdigit
  · exact .inr List.mem_cons_self
  · exact .inl hdigit

/-- **How a value without parts begins**: with no blank, and with nothing that
begins or ends a value with parts. -/
theorem Literal.text_head (l : Literal) :
    ∃ c s, l.text = c :: s ∧ isJsonBlank c = false ∧ c ≠ ']' ∧ c ≠ '}' ∧ c ≠ '[' ∧ c ≠ '{' := by
  cases l with
  | null => exact ⟨'n', _, rfl, by decide⟩
  | bool b => cases b <;> exact ⟨_, _, rfl, by decide⟩
  | numeral s h =>
    obtain ⟨n, hn⟩ := h
    obtain ⟨c, t, htext, hc⟩ := hn.head
    obtain ⟨hblank, hbracket, hbrace, hopen, hopen', -⟩ :=
      isNumeralChar_ne (isNumeralChar_of_head hc)
    exact ⟨c, t, htext, hblank, hbracket, hbrace, hopen, hopen'⟩
  | string l => exact ⟨'"', _, rfl, by decide⟩

theorem unbroken_scalar (used : Except Fault Scalar) : (Reading.scalar used none).Unbroken :=
  nofun

/-- **A value without parts is read off the front of a text** as it is written. -/
theorem Literal.readScalar_append (l : Literal) {rest : List Char} (hrest : EndsNumeral rest) :
    readScalar (l.text ++ rest) = (l.reading, rest) := by
  cases l with
  | null => rfl
  | bool b => cases b <;> rfl
  | numeral s h =>
    obtain ⟨n, hn⟩ := h
    obtain ⟨used, hused⟩ := numeralReading_eq n
    have hread := hn.readNumeral
    rw [hused] at hread
    obtain ⟨c, t, rfl, hc⟩ := hn.head
    obtain ⟨-, -, -, -, -, hnull, htrue, hfalse, hquote⟩ :=
      isNumeralChar_ne (isNumeralChar_of_head hc)
    show readScalar (c :: (t ++ rest)) = ((readNumeral (c :: t)).1, rest)
    rw [readScalar, if_neg hnull, if_neg htrue, if_neg hfalse, if_neg hquote, if_pos hc, hread]
    exact readNumeral_append hread (unbroken_scalar used) hrest
  | string l =>
    show (Reading.string (readText (l.body ++ ['"'] ++ rest)).1
      (readText (l.body ++ ['"'] ++ rest)).2.1, (readText (l.body ++ ['"'] ++ rest)).2.2) = _
    simp [reading]

end Academy
