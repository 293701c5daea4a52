import Academy.Proofs.Json.Spelling
import Academy.Proofs.Json.Survival

/-!
# A written value is read as it was written

What is written for a value is one way to spell it, the one with the
fewest escapes and without blanks, and a text is read as what it spells
(`Spelling.IsText.readingOfText`). So it is enough to give the spelling
(`Json.spelling`), and to say what that is read as.

Not every value is written so that it is read again. The text of a number
has to be a numeral (`Json.Readable`), and what it is read as is then what
the numeral is worth, which need not be the number. Strings have no
condition, since whatever is not allowed in them is escaped.
-/

namespace Academy

/-! ## Values -/

namespace Json

mutual

/-- **What a value is read as**: itself, with its numbers as their numerals
are read. -/
def reading : Json → Reading
  | .null => .scalar (.ok .null) none
  | .bool b => .scalar (.ok (.bool b)) none
  | .number n => (readNumeral (numberText n)).1
  | .string s => .string (.ok s) none
  | .array items => .array (itemReadings items) none
  | .object members => .object (memberReadings members) none

/-- What items are read as. -/
def itemReadings : List Json → List Reading
  | [] => []
  | item :: items => item.reading :: itemReadings items

/-- What members are read as. -/
def memberReadings : List (String × Json) → List (Except Fault String × Reading)
  | [] => []
  | (name, value) :: members => (.ok name, value.reading) :: memberReadings members

end

mutual

/-- **A value whose numbers are written as numerals.** -/
def Readable : Json → Prop
  | .null => True
  | .bool _ => True
  | .number n => ∃ used, readNumeral (numberText n) = (.scalar used none, [])
  | .string _ => True
  | .array items => ItemsReadable items
  | .object members => MembersReadable members

/-- Items whose numbers are written as numerals. -/
def ItemsReadable : List Json → Prop
  | [] => True
  | item :: items => item.Readable ∧ ItemsReadable items

/-- Members whose numbers are written as numerals. -/
def MembersReadable : List (String × Json) → Prop
  | [] => True
  | (_, value) :: members => value.Readable ∧ MembersReadable members

end

end Json

/-- No other value is read as `null`. -/
theorem Json.reading_ne_null {j : Json} (hj : j.Readable) (hnull : j ≠ .null)
    {stop : Option Fault} : j.reading ≠ .scalar (.ok .null) stop := by
  cases j with
  | null => exact absurd rfl hnull
  | number n =>
    obtain ⟨used, hread⟩ := hj
    obtain ⟨numeral, -, -, -, hused⟩ := exists_writtenAs hread (unbroken_scalar used)
    show (readNumeral (numberText n)).1 ≠ _
    rw [hread]
    dsimp only
    rw [hused]
    unfold numeralReading
    split <;> exact nofun
  | _ => exact nofun

namespace Json

/-! ## Their spelling -/

theorem itemsReadable_iff {items : List Json} :
    ItemsReadable items ↔ ∀ j ∈ items, j.Readable := by
  induction items with
  | nil => exact iff_of_true trivial nofun
  | cons item items ih => rw [ItemsReadable, ih, List.forall_mem_cons]

theorem exists_writtenAs_of_readable {n : JsonNumber} (h : (number n).Readable) :
    ∃ numeral : Numeral, numeral.WrittenAs (numberText n) := by
  obtain ⟨used, hread⟩ := h
  obtain ⟨numeral, u, hnumeral, htext, -⟩ := exists_writtenAs hread (unbroken_scalar used)
  rw [htext, List.append_nil]
  exact ⟨numeral, hnumeral⟩

mutual

/-- **How a value is spelled** where it is written. -/
def spelling : (j : Json) → j.Readable → Spelling
  | .null, _ => .literal .null
  | .bool b, _ => .literal (.bool b)
  | .number n, h => .literal (.numeral (numberText n) (exists_writtenAs_of_readable h))
  | .string s, _ => .literal (.string (.ofString s))
  | .array items, h => .array (itemSpellings items h)
  | .object members, h => .object (memberSpellings members h)

/-- How items are spelled. -/
def itemSpellings : (items : List Json) → ItemsReadable items → List Spelling
  | [], _ => []
  | item :: items, h => item.spelling h.1 :: itemSpellings items h.2

/-- How members are spelled. -/
def memberSpellings :
    (members : List (String × Json)) → MembersReadable members → List (StringLiteral × Spelling)
  | [], _ => []
  | (name, value) :: members, h =>
    (.ofString name, value.spelling h.1) :: memberSpellings members h.2

end

mutual

/-- A value is read as its spelling is. -/
theorem reading_spelling : (j : Json) → (h : j.Readable) → (j.spelling h).reading = j.reading
  | .null, _ => rfl
  | .bool _, _ => rfl
  | .number _, _ => rfl
  | .string s, _ => by
    show Reading.string (StringLiteral.ofString s).used none = .string (.ok s) none
    simp
  | .array items, h => congrArg (Reading.array · none) (itemReadings_itemSpellings items h)
  | .object members, h =>
    congrArg (Reading.object · none) (memberReadings_memberSpellings members h)

theorem itemReadings_itemSpellings : (items : List Json) → (h : ItemsReadable items) →
    Spelling.itemReadings (itemSpellings items h) = itemReadings items
  | [], _ => rfl
  | item :: items, h =>
    congrArg₂ List.cons (reading_spelling item h.1) (itemReadings_itemSpellings items h.2)

theorem memberReadings_memberSpellings : (members : List (String × Json)) →
    (h : MembersReadable members) →
    Spelling.memberReadings (memberSpellings members h) = memberReadings members
  | [], _ => rfl
  | (name, value) :: members, h =>
    congrArg₂ List.cons
      (congrArg₂ Prod.mk (StringLiteral.used_ofString name) (reading_spelling value h.1))
      (memberReadings_memberSpellings members h.2)

end

/-! ### Their tokens -/

/-- What follows an item. -/
def itemsTail : List Json → List Char
  | [] => [']']
  | item :: items => ',' :: itemsText (item :: items)

theorem itemsText_cons (item : Json) (items : List Json) :
    itemsText (item :: items) = item.text ++ itemsTail items := by
  cases items <;> rfl

/-- What follows a member. -/
def membersTail : List (String × Json) → List Char
  | [] => ['}']
  | member :: members => ',' :: membersText (member :: members)

theorem membersText_cons (name : String) (value : Json) (members : List (String × Json)) :
    membersText ((name, value) :: members)
      = stringText name ++ ':' :: (value.text ++ membersTail members) := by
  cases members <;> simp [membersText, membersTail]

theorem itemTokens_false_flatten {items : List Json} {h : ItemsReadable items}
    (hitems : (Spelling.itemTokens true (itemSpellings items h)).flatten = itemsText items) :
    (Spelling.itemTokens false (itemSpellings items h)).flatten = itemsTail items := by
  cases items with
  | nil => rfl
  | cons item items => exact congrArg (',' :: ·) hitems

theorem memberTokens_false_flatten {members : List (String × Json)} {h : MembersReadable members}
    (hmembers : (Spelling.memberTokens true (memberSpellings members h)).flatten
      = membersText members) :
    (Spelling.memberTokens false (memberSpellings members h)).flatten = membersTail members := by
  cases members with
  | nil => rfl
  | cons member members => exact congrArg (',' :: ·) hmembers

mutual

/-- **The text of a value** is its tokens without blanks. -/
theorem flatten_tokens : (j : Json) → (h : j.Readable) → (j.spelling h).tokens.flatten = j.text
  | .null, _ => rfl
  | .bool true, _ => rfl
  | .bool false, _ => rfl
  | .number n, _ => List.append_nil (numberText n)
  | .string s, _ => (List.append_nil _).trans (StringLiteral.text_ofString s)
  | .array items, h => congrArg ('[' :: ·) (flatten_itemTokens items h)
  | .object members, h => congrArg ('{' :: ·) (flatten_memberTokens members h)

theorem flatten_itemTokens : (items : List Json) → (h : ItemsReadable items) →
    (Spelling.itemTokens true (itemSpellings items h)).flatten = itemsText items
  | [], _ => rfl
  | item :: items, h => by
    show ((item.spelling h.1).tokens ++ Spelling.itemTokens false (itemSpellings items h.2)).flatten
      = _
    rw [List.flatten_append, flatten_tokens item h.1,
      itemTokens_false_flatten (flatten_itemTokens items h.2), itemsText_cons]

theorem flatten_memberTokens : (members : List (String × Json)) → (h : MembersReadable members) →
    (Spelling.memberTokens true (memberSpellings members h)).flatten = membersText members
  | [], _ => rfl
  | (name, value) :: members, h => by
    show (StringLiteral.ofString name).text ++ (':' :: ((value.spelling h.1).tokens ++
      Spelling.memberTokens false (memberSpellings members h.2)).flatten) = _
    simp [flatten_tokens value h.1, memberTokens_false_flatten (flatten_memberTokens members h.2),
      membersText_cons]

end

/-- What is written for a value is one of its texts. -/
theorem isText_spelling {j : Json} (hj : j.Readable) : (j.spelling hj).IsText j.text :=
  flatten_tokens j hj ▸ (j.spelling hj).isText_flatten

/-- **The text of a value is read as the value**, and nothing is left. -/
theorem readingOfText_text {j : Json} (hj : j.Readable) :
    Reading.ofText j.text = (j.reading, []) := by
  rw [(isText_spelling hj).readingOfText, reading_spelling]

/-! ## Numbers -/

/-- The digits of a number are read as a numeral without point and exponent. -/
theorem readMagnitude_toDigits (negative : Bool) (n : Nat) :
    readMagnitude negative (Nat.toDigits 10 n)
      = (numeralReading ⟨negative, Nat.toDigits 10 n, [], none⟩, []) := by
  have hleading : Leading (Nat.toDigits 10 n) := by
    refine ⟨fun c => isDigit_of_mem_toDigits, Nat.toDigits_ne_nil, fun c s h => ?_⟩
    rcases Nat.eq_zero_or_pos n with rfl | hpos
    · exact nomatch h
    · exact toDigits_ne_zero_cons hpos _ h
  have hread : readMagnitude negative (Nat.toDigits 10 n ++ ([] ++ [])) = _ :=
    readMagnitude_text hleading .absent .absent
  rwa [List.append_nil, List.append_nil] at hread

/-- **Natural numbers of 64 bits are read as they are written.** -/
theorem readNumeral_toDigits {n : Nat} (hn : n < UInt64.size) :
    readNumeral (Nat.toDigits 10 n) = (.scalar (.ok (.number (.natural n))) none, []) := by
  have hplain : readNumeral (Nat.toDigits 10 n) = readMagnitude false (Nat.toDigits 10 n) :=
    readNumeral_of_head_ne fun h => nomatch isDigit_of_mem_toDigits (List.mem_of_head? h)
  rw [hplain, readMagnitude_toDigits]
  unfold numeralReading Numeral.number?
  dsimp only
  rw [digitsValue_toDigits, if_pos ⟨rfl, Bool.false_ne_true, hn⟩]

/-- **Negative numbers of 64 bits are read as they are written.** -/
theorem readNumeral_negative {n : Nat} (h0 : 0 < n) (hn : (signed? (-n)).isSome) :
    readNumeral ('-' :: Nat.toDigits 10 n) = (.scalar (.ok (.number (.negative n))) none, []) := by
  show readMagnitude true (Nat.toDigits 10 n) = _
  rw [readMagnitude_toDigits]
  unfold numeralReading Numeral.number?
  dsimp only
  rw [digitsValue_toDigits, if_neg fun h => h.2.1 rfl, if_pos ⟨rfl, rfl, h0, hn⟩]

theorem nat_readable {n : Nat} (hn : n < UInt64.size) : (Json.nat n).Readable :=
  ⟨_, readNumeral_toDigits hn⟩

theorem nat_reading {n : Nat} (hn : n < UInt64.size) :
    (Json.nat n).reading = .scalar (.ok (.number (.natural n))) none :=
  congrArg Prod.fst (readNumeral_toDigits hn)

/-- **Numbers that survive are read as they are written.** -/
theorem real_reading {x : Binary64} (hx : x.Survives) :
    (Json.number (.real x)).reading = .scalar (.ok (.number (.real x))) none :=
  congrArg Prod.fst hx.readNumeral

/-! ## No controls -/

/-- A character that is no control of ASCII. -/
def NoControl (c : Char) : Prop :=
  0x20 ≤ c.toNat

instance (c : Char) : Decidable (NoControl c) :=
  inferInstanceAs (Decidable (_ ≤ _))

/-- A text without controls, checked character by character. -/
theorem noControl_of_all {s : List Char} (h : (s.all fun c => decide (NoControl c)) = true) :
    ∀ c ∈ s, NoControl c := by
  intro c hc
  exact of_decide_eq_true (List.all_eq_true.mp h c hc)

theorem noControl_of_isDigit {c : Char} (h : c.isDigit = true) : NoControl c := by
  unfold Char.isDigit at h
  rw [Bool.and_eq_true, decide_eq_true_iff] at h
  exact (show 0x20 ≤ 48 by decide).trans h.1

theorem noControl_of_isNumeralChar {c : Char} (h : IsNumeralChar c) : NoControl c := by
  rcases h with hdigit | hsign
  · exact noControl_of_isDigit hdigit
  · simp only [List.mem_cons, List.not_mem_nil, or_false] at hsign
    rcases hsign with rfl | rfl | rfl | rfl <;> decide

theorem noControl_of_mem_hexDigits {width n : Nat} {c : Char} (h : c ∈ hexDigits width n) :
    NoControl c := by
  have hall : ∀ d < 16, NoControl (hexDigit d) := by decide
  induction width generalizing n with
  | zero => exact nomatch h
  | succ width ih =>
    rcases List.mem_append.mp h with h | h
    · exact ih h
    · exact List.mem_singleton.mp h ▸ hall _ (Nat.mod_lt n (by decide))

/-- **Controls are escaped.** -/
theorem noControl_of_mem_escapedChar {c d : Char} (h : d ∈ escapedChar c) : NoControl d := by
  unfold escapedChar at h
  split at h
  · exact noControl_of_all (by decide) d h
  split at h
  · exact noControl_of_all (by decide) d h
  split at h
  · exact noControl_of_all (by decide) d h
  split at h
  · exact noControl_of_all (by decide) d h
  split at h
  · exact noControl_of_all (by decide) d h
  split at h
  · exact noControl_of_all (by decide) d h
  split at h
  · exact noControl_of_all (by decide) d h
  split at h
  · rcases List.mem_cons.mp h with rfl | h
    · decide
    rcases List.mem_cons.mp h with rfl | h
    · decide
    · exact noControl_of_mem_hexDigits h
  · next hcontrol => exact List.mem_singleton.mp h ▸ Nat.not_lt.mp hcontrol

theorem noControl_of_mem_stringText {s : String} {d : Char} (h : d ∈ stringText s) :
    NoControl d := by
  unfold stringText at h
  rcases List.mem_append.mp h with h | h
  · rcases List.mem_cons.mp h with rfl | h
    · decide
    · obtain ⟨c, -, hd⟩ := List.mem_flatMap.mp h
      exact noControl_of_mem_escapedChar hd
  · exact List.mem_singleton.mp h ▸ by decide

theorem noControl_of_mem_numberText {n : JsonNumber} {d : Char} (h : d ∈ numberText n) :
    NoControl d := by
  cases n with
  | natural n => exact noControl_of_isDigit (isDigit_of_mem_toDigits h)
  | negative n =>
    rcases List.mem_cons.mp h with rfl | h
    · decide
    · exact noControl_of_isDigit (isDigit_of_mem_toDigits h)
  | real x =>
    by_cases hx : x.isFinite = true
    · exact noControl_of_isNumeralChar (isNumeralChar_of_mem_realText hx h)
    · rw [numberText, realText, if_neg hx] at h
      exact noControl_of_all (by decide) d h

theorem noControl_of_mem_itemsText {items : List Json}
    (hitems : ∀ item ∈ items, ∀ c ∈ item.text, NoControl c) {d : Char}
    (h : d ∈ itemsText items) : NoControl d := by
  induction items with
  | nil => exact List.mem_singleton.mp h ▸ by decide
  | cons item items ih =>
    rw [itemsText_cons] at h
    rcases List.mem_append.mp h with h | h
    · exact hitems item List.mem_cons_self d h
    · cases items with
      | nil => exact List.mem_singleton.mp h ▸ by decide
      | cons next items =>
        rcases List.mem_cons.mp h with rfl | h
        · decide
        · exact ih (fun item hitem => hitems item (List.mem_cons_of_mem _ hitem)) h

theorem noControl_of_mem_membersText {members : List (String × Json)}
    (hmembers : ∀ m ∈ members, ∀ c ∈ m.2.text, NoControl c) {d : Char}
    (h : d ∈ membersText members) : NoControl d := by
  induction members with
  | nil => exact List.mem_singleton.mp h ▸ by decide
  | cons member members ih =>
    obtain ⟨name, value⟩ := member
    rw [membersText_cons] at h
    rcases List.mem_append.mp h with h | h
    · exact noControl_of_mem_stringText h
    rcases List.mem_cons.mp h with rfl | h
    · decide
    rcases List.mem_append.mp h with h | h
    · exact hmembers _ List.mem_cons_self d h
    · cases members with
      | nil => exact List.mem_singleton.mp h ▸ by decide
      | cons next members =>
        rcases List.mem_cons.mp h with rfl | h
        · decide
        · exact ih (fun m hm => hmembers m (List.mem_cons_of_mem _ hm)) h

/-- **No text of a value has a control in it**, and with it no line feed and no
carriage return. -/
theorem noControl_of_mem_text : (j : Json) → ∀ c ∈ j.text, NoControl c
  | .null => noControl_of_all (by decide)
  | .bool true => noControl_of_all (by decide)
  | .bool false => noControl_of_all (by decide)
  | .number _ => fun _ => noControl_of_mem_numberText
  | .string _ => fun _ => noControl_of_mem_stringText
  | .array items => fun c h => by
    rcases List.mem_cons.mp h with rfl | h
    · decide
    · exact noControl_of_mem_itemsText (fun item _ => noControl_of_mem_text item) h
  | .object members => fun c h => by
    rcases List.mem_cons.mp h with rfl | h
    · decide
    · exact noControl_of_mem_membersText (fun m _ => noControl_of_mem_text m.2) h
termination_by j => j
decreasing_by
  · rename_i hitem
    have := List.sizeOf_lt_of_mem hitem
    simp_wf
    omega
  · rename_i hm
    have := List.sizeOf_lt_of_mem hm
    obtain ⟨name, value⟩ := m
    simp_wf
    simp at this
    omega

end Json

end Academy
