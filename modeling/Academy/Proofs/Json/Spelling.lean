import Academy.Proofs.Json.Literals

/-!
# Blanks between tokens mean nothing

A value can be spelled in many ways: its strings and numerals in theirs
(`Literal`), and all of it with blanks between any two tokens. What is
read is known from the tokens alone (`Spelling.IsText.readingOfText`).

Where a value stands within a text is known by how it begins, so the
theorem has to be about a value and what follows it: a value is read off
the front of a text, and the rest is left as it is (`readValue_spaced`).
What follows may be anything that does not continue a numeral, which is
all that a value can be continued by. Blanks do not continue a numeral
either, and they are passed over in front of each token and nowhere else;
so it is in front of its token that a blank is counted here.
-/

namespace Academy

/-- **A value as it is spelled**, but for the blanks in it. -/
inductive Spelling
  | literal (l : Literal)
  | array (items : List Spelling)
  | object (members : List (StringLiteral × Spelling))

namespace Spelling

/-! ## Tokens -/

/-- What stands in front of an item or a member. -/
def comma (first : Bool) : List (List Char) :=
  if first then [] else [[',']]

mutual

/-- **The tokens of a value.** -/
def tokens : Spelling → List (List Char)
  | .literal l => [l.text]
  | .array items => ['['] :: itemTokens true items
  | .object members => ['{'] :: memberTokens true members

/-- The tokens of items up to the bracket. -/
def itemTokens (first : Bool) : List Spelling → List (List Char)
  | [] => [[']']]
  | item :: items => comma first ++ (item.tokens ++ itemTokens false items)

/-- The tokens of members up to the brace. -/
def memberTokens (first : Bool) : List (StringLiteral × Spelling) → List (List Char)
  | [] => [['}']]
  | (name, value) :: members =>
    comma first ++ (name.text :: [':'] :: (value.tokens ++ memberTokens false members))

end

mutual

/-- **What a value is read as.** -/
def reading : Spelling → Reading
  | .literal l => l.reading
  | .array items => .array (itemReadings items) none
  | .object members => .object (memberReadings members) none

/-- What items are read as. -/
def itemReadings : List Spelling → List Reading
  | [] => []
  | item :: items => item.reading :: itemReadings items

/-- What members are read as. -/
def memberReadings : List (StringLiteral × Spelling) → List (Except Fault String × Reading)
  | [] => []
  | (name, value) :: members => (name.used, value.reading) :: memberReadings members

end

theorem memberReadings_eq_map (members : List (StringLiteral × Spelling)) :
    memberReadings members = members.map fun m => (m.1.used, m.2.reading) := by
  induction members with
  | nil => rfl
  | cons m members ih => rw [List.map_cons, ← ih]; rfl

/-- Nothing stops the reading of a value. -/
@[simp] theorem reading_stop (w : Spelling) : w.reading.stop = none := by
  cases w with
  | literal l => simp [reading]
  | array items => rfl
  | object members => rfl

/-- How the tokens of a value begin: with no blank, and with nothing that ends
what it stands in. -/
theorem tokens_head (w : Spelling) :
    ∃ c t ts, w.tokens = (c :: t) :: ts ∧ isJsonBlank c = false ∧ c ≠ ']' ∧ c ≠ '}' := by
  cases w with
  | literal l =>
    obtain ⟨c, t, htext, hblank, hbracket, hbrace, -⟩ := l.text_head
    exact ⟨c, t, [], by rw [tokens, htext], hblank, hbracket, hbrace⟩
  | array items => exact ⟨'[', [], _, rfl, by decide⟩
  | object members => exact ⟨'{', [], _, rfl, by decide⟩

end Spelling

/-! ## Blanks -/

/-- A text of blanks. -/
def Blank (s : List Char) : Prop :=
  ∀ c ∈ s, isJsonBlank c = true

/-- **Tokens with blanks in front of each of them.** -/
inductive Spaced : List (List Char) → List Char → Prop
  | nil : Spaced [] []
  | cons {blanks token s : List Char} {tokens : List (List Char)} :
    Blank blanks → Spaced tokens s → Spaced (token :: tokens) (blanks ++ (token ++ s))

theorem skipBlanks_append {blanks : List Char} (h : Blank blanks) (s : List Char) :
    skipBlanks (blanks ++ s) = skipBlanks s :=
  List.dropWhile_append_of_pos h

theorem skipBlanks_of_blank {blanks : List Char} (h : Blank blanks) : skipBlanks blanks = [] := by
  have hskip := skipBlanks_append h []
  rwa [List.append_nil] at hskip

theorem ne_of_isJsonBlank {c : Char} (h : isJsonBlank c = true) :
    c.isDigit = false ∧ c ≠ '.' ∧ c ≠ 'e' ∧ c ≠ 'E' := by
  unfold isJsonBlank at h
  simp only [Bool.or_eq_true, decide_eq_true_eq] at h
  rcases h with ((rfl | rfl) | rfl) | rfl <;> decide

/-- Blanks do not continue a numeral. -/
theorem EndsNumeral.blanks_append {blanks s : List Char} (h : Blank blanks) (hs : EndsNumeral s) :
    EndsNumeral (blanks ++ s) := by
  cases blanks with
  | nil => exact hs
  | cons c blanks =>
    intro d hd
    obtain rfl := Option.some.inj hd
    exact ne_of_isJsonBlank (h _ List.mem_cons_self)

theorem endsNumeral_cons {c : Char} (hc : c = ',' ∨ c = ']' ∨ c = '}') (s : List Char) :
    EndsNumeral (c :: s) := by
  intro d hd
  obtain rfl : c = d := Option.some.inj hd
  rcases hc with rfl | rfl | rfl <;> decide

namespace Spaced

variable {ts us : List (List Char)} {s t a b : List Char} {c : Char}

/-- Tokens with the same blanks in front of each of them. -/
theorem flatMap {blanks : List Char} (h : Blank blanks) (ts : List (List Char)) :
    Spaced ts (ts.flatMap (blanks ++ ·)) := by
  induction ts with
  | nil => exact .nil
  | cons t ts ih =>
    rw [List.flatMap_cons, List.append_assoc]
    exact .cons h ih

/-- Tokens without blanks. -/
theorem flatten (ts : List (List Char)) : Spaced ts ts.flatten := by
  have hnone : Blank [] := nofun
  have h := flatMap hnone ts
  rwa [List.flatMap_def, List.map_congr_left (fun t _ => List.nil_append t), List.map_id'] at h

/-- A text is cut where its tokens are. -/
theorem exists_of_append (h : Spaced (ts ++ us) s) :
    ∃ a b, s = a ++ b ∧ Spaced ts a ∧ Spaced us b := by
  induction ts generalizing s with
  | nil => exact ⟨[], s, rfl, .nil, h⟩
  | cons t ts ih =>
    cases h with
    | @cons blanks _ s _ hblanks hs =>
      obtain ⟨a, b, rfl, ha, hb⟩ := ih hs
      exact ⟨blanks ++ (t ++ a), b, by rw [List.append_assoc, List.append_assoc],
        .cons hblanks ha, hb⟩

/-- **The blanks in front of a token are passed over.** -/
theorem skip (h : Spaced ((c :: t) :: ts) s) (hc : isJsonBlank c = false) :
    ∃ u, Spaced ts u ∧ (c :: (t ++ u)).length ≤ s.length ∧
      ∀ rest, skipBlanks (s ++ rest) = c :: (t ++ (u ++ rest)) := by
  cases h with
  | @cons blanks _ u _ hblanks hu =>
    refine ⟨u, hu, ?_, fun rest => ?_⟩
    · rw [List.length_append]
      exact Nat.le_add_left _ _
    · rw [List.append_assoc, skipBlanks_append hblanks, List.append_assoc, List.cons_append,
        skipBlanks_cons hc]

/-- What a comma or a bracket ends is not continued by the blanks before it. -/
theorem endsNumeral (h : Spaced ([c] :: ts) s) (hc : c = ',' ∨ c = ']' ∨ c = '}')
    (rest : List Char) : EndsNumeral (s ++ rest) ∧ 0 < s.length := by
  cases h with
  | @cons blanks _ u _ hblanks _ =>
    refine ⟨?_, ?_⟩
    · rw [List.append_assoc]
      exact .blanks_append hblanks (endsNumeral_cons hc _)
    · rw [List.length_append]
      exact Nat.add_pos_right _ (Nat.succ_pos _)

end Spaced

/-! ## Steps of the reader -/

section

variable {fuel : Nat} {first : Bool} {c : Char} {s t u : List Char}

theorem readValue_array (h : skipBlanks s = '[' :: t) :
    readValue (fuel + 1) s = (.array (readItems fuel true t).1 (readItems fuel true t).2.1,
      (readItems fuel true t).2.2) := by
  rw [readValue, h]
  rfl

theorem readValue_object (h : skipBlanks s = '{' :: t) :
    readValue (fuel + 1) s = (.object (readMembers fuel true t).1 (readMembers fuel true t).2.1,
      (readMembers fuel true t).2.2) := by
  rw [readValue, h]
  rfl

theorem readValue_scalar (h : skipBlanks s = c :: t) (hbracket : c ≠ '[') (hbrace : c ≠ '{') :
    readValue (fuel + 1) s = readScalar (c :: t) := by
  rw [readValue, h]
  split
  · next heq => exact absurd (List.cons.inj heq).1 hbracket
  · next heq => exact absurd (List.cons.inj heq).1 hbrace
  · rfl

theorem readItems_end (h : skipBlanks s = ']' :: t) :
    readItems (fuel + 1) first s = ([], none, t) := by
  rw [readItems, h]
  rfl

theorem readItems_first (h : skipBlanks s = c :: t) (hc : c ≠ ']') :
    readItems (fuel + 1) true s = readItem fuel (c :: t) := by
  rw [readItems, h]
  split
  · next heq => exact absurd heq (List.cons_ne_nil _ _)
  · next heq => exact absurd (List.cons.inj heq).1 hc
  · next heq =>
    obtain ⟨rfl, rfl⟩ := List.cons.inj heq
    exact if_pos rfl

theorem readItems_comma (h : skipBlanks s = ',' :: t) (hnext : skipBlanks t = c :: u)
    (hc : c ≠ ']') : readItems (fuel + 1) false s = readItem fuel (c :: u) := by
  rw [readItems, h]
  split
  · next heq => exact absurd heq (List.cons_ne_nil _ _)
  · next heq => exact absurd (List.cons.inj heq).1 (by decide)
  · next heq =>
    obtain ⟨rfl, rfl⟩ := List.cons.inj heq
    rw [if_neg Bool.false_ne_true, if_pos rfl, hnext]
    split
    · next heq => exact absurd (List.cons.inj heq).1 hc
    · rfl

theorem readMembers_end (h : skipBlanks s = '}' :: t) :
    readMembers (fuel + 1) first s = ([], none, t) := by
  rw [readMembers, h]
  rfl

theorem readMembers_first (h : skipBlanks s = '"' :: t) :
    readMembers (fuel + 1) true s = readMember fuel ('"' :: t) := by
  rw [readMembers, h]
  rfl

theorem readMembers_comma (h : skipBlanks s = ',' :: t) (hnext : skipBlanks t = '"' :: u) :
    readMembers (fuel + 1) false s = readMember fuel ('"' :: u) := by
  rw [readMembers, h]
  split
  · next heq => exact absurd heq (List.cons_ne_nil _ _)
  · next heq => exact absurd (List.cons.inj heq).1 (by decide)
  · next heq =>
    obtain ⟨rfl, rfl⟩ := List.cons.inj heq
    rw [if_neg Bool.false_ne_true, if_pos rfl, hnext]
    rfl

theorem readMember_colon (name : StringLiteral) {value : Reading} (h : skipBlanks s = ':' :: t)
    (hvalue : readValue fuel t = (value, u)) (hstop : value.stop = none) :
    readMember (fuel + 1) (name.text ++ s)
      = ((name.used, value) :: (readMembers fuel false u).1, (readMembers fuel false u).2) := by
  rw [StringLiteral.text, List.cons_append, List.append_assoc, List.singleton_append, readMember,
    name.readText_body]
  dsimp only
  rw [h]
  split
  · next heq =>
    obtain ⟨-, rfl⟩ := List.cons.inj heq
    rw [hvalue]
    dsimp only
    rw [hstop]
  · next heq => exact absurd heq (List.cons_ne_nil _ _)
  · next hcolon heq =>
    obtain ⟨rfl, -⟩ := List.cons.inj heq
    exact (hcolon rfl).elim

end

namespace Spelling

/-- The blanks in front of a value are passed over. -/
theorem skip (w : Spelling) {s : List Char} (h : Spaced w.tokens s) :
    ∃ c u, isJsonBlank c = false ∧ c ≠ ']' ∧ c ≠ '}' ∧ Spaced w.tokens (c :: u) ∧
      (c :: u).length ≤ s.length ∧ ∀ rest, skipBlanks (s ++ rest) = c :: (u ++ rest) := by
  obtain ⟨c, t, ts, htokens, hblank, hbracket, hbrace⟩ := w.tokens_head
  rw [htokens] at h ⊢
  obtain ⟨u, hu, hlength, hskip⟩ := h.skip hblank
  refine ⟨c, t ++ u, hblank, hbracket, hbrace, ?_, hlength, fun rest => ?_⟩
  · have hnone : Blank [] := nofun
    exact .cons hnone hu
  · rw [hskip, List.append_assoc]

/-! ## Reading -/

/-- **A value that is read off the front of a text**, with three steps for each of
its characters. -/
def ReadsBack (w : Spelling) : Prop :=
  ∀ s, Spaced w.tokens s → ∀ fuel, 3 * s.length ≤ fuel → ∀ rest, EndsNumeral rest →
    readValue fuel (s ++ rest) = (w.reading, rest)

/-! ### Items -/

/-- What follows an item does not continue it, and is not nothing. -/
theorem endsNumeral_itemTokens {items : List Spelling} {s : List Char}
    (hs : Spaced (itemTokens false items) s) (rest : List Char) :
    EndsNumeral (s ++ rest) ∧ 0 < s.length := by
  cases items with
  | nil => exact Spaced.endsNumeral hs (.inr (.inl rfl)) rest
  | cons item items => exact Spaced.endsNumeral hs (.inl rfl) rest

theorem readItem_spaced {item : Spelling} (hback : item.ReadsBack) {a : List Char}
    (ha : Spaced item.tokens a) {fuel : Nat} (hfuel : 3 * a.length ≤ fuel) {rest : List Char}
    (hrest : EndsNumeral rest) :
    readItem (fuel + 1) (a ++ rest)
      = (item.reading :: (readItems fuel false rest).1, (readItems fuel false rest).2) := by
  rw [readItem, hback a ha fuel hfuel rest hrest]
  simp

/-- **Items are read up to the bracket.** -/
theorem readItems_spaced {items : List Spelling} (hback : ∀ w ∈ items, w.ReadsBack) {first : Bool}
    {s : List Char} (hs : Spaced (itemTokens first items) s) {fuel : Nat}
    (hfuel : 3 * s.length ≤ fuel) (rest : List Char) :
    readItems fuel first (s ++ rest) = (itemReadings items, none, rest) := by
  induction items generalizing first s fuel with
  | nil =>
    obtain ⟨u, hu, hlength, hskip⟩ := Spaced.skip hs (by decide)
    cases hu
    rw [List.length_cons] at hlength
    obtain ⟨fuel, rfl⟩ : ∃ n, fuel = n + 1 := ⟨fuel - 1, by omega⟩
    exact readItems_end (hskip rest)
  | cons item items ih =>
    obtain ⟨hitem, hitems⟩ := List.forall_mem_cons.mp hback
    -- after the comma, if there is one, come the item and what follows it
    have hgo : ∀ v, Spaced (item.tokens ++ itemTokens false items) v →
        ∃ c u, c ≠ ']' ∧ 0 < v.length ∧ skipBlanks (v ++ rest) = c :: u ∧
          ∀ n, 3 * v.length ≤ n + 1 →
            readItem n (c :: u) = (itemReadings (item :: items), none, rest) := by
      intro v hv
      obtain ⟨a, b, rfl, ha, hb⟩ := hv.exists_of_append
      obtain ⟨c, u, -, hbracket, -, hu, hlength, hskip⟩ := item.skip ha
      obtain ⟨hends, hpos⟩ := endsNumeral_itemTokens hb rest
      simp only [List.length_append, List.length_cons] at hlength ⊢
      refine ⟨c, u ++ (b ++ rest), hbracket, by omega, by rw [List.append_assoc, hskip],
        fun n hn => ?_⟩
      obtain ⟨n, rfl⟩ : ∃ k, n = k + 1 := ⟨n - 1, by omega⟩
      rw [← List.cons_append, readItem_spaced hitem hu (by rw [List.length_cons]; omega) hends,
        ih hitems hb (by omega)]
      rfl
    cases first with
    | true =>
      obtain ⟨c, u, hbracket, hpos, hskip, hread⟩ := hgo s hs
      obtain ⟨fuel, rfl⟩ : ∃ n, fuel = n + 1 := ⟨fuel - 1, by omega⟩
      rw [readItems_first hskip hbracket]
      exact hread fuel hfuel
    | false =>
      obtain ⟨v, hv, hlength, hcomma⟩ := Spaced.skip (c := ',') (t := []) hs (by decide)
      obtain ⟨c, u, hbracket, hpos, hskip, hread⟩ := hgo v hv
      rw [List.length_cons, List.nil_append] at hlength
      obtain ⟨fuel, rfl⟩ : ∃ n, fuel = n + 1 := ⟨fuel - 1, by omega⟩
      rw [readItems_comma (hcomma rest) hskip hbracket]
      exact hread fuel (by omega)

/-! ### Members -/

/-- What follows a member does not continue it, and is not nothing. -/
theorem endsNumeral_memberTokens {members : List (StringLiteral × Spelling)} {s : List Char}
    (hs : Spaced (memberTokens false members) s) (rest : List Char) :
    EndsNumeral (s ++ rest) ∧ 0 < s.length := by
  cases members with
  | nil => exact Spaced.endsNumeral hs (.inr (.inr rfl)) rest
  | cons m members => exact Spaced.endsNumeral hs (.inl rfl) rest

/-- A member is read from its quote on, up to what follows it. -/
theorem readMember_spaced (name : StringLiteral) {value : Spelling} (hback : value.ReadsBack)
    {a rest : List Char} {ts : List (List Char)} (ha : Spaced ([':'] :: (value.tokens ++ ts)) a)
    {fuel : Nat} (hfuel : 3 * a.length ≤ fuel + 1)
    (hends : ∀ b, Spaced ts b → EndsNumeral (b ++ rest)) :
    ∃ b, Spaced ts b ∧ b.length < a.length ∧
      readMember (fuel + 1) (name.text ++ (a ++ rest))
        = ((name.used, value.reading) :: (readMembers fuel false (b ++ rest)).1,
          (readMembers fuel false (b ++ rest)).2) := by
  obtain ⟨v, hv, hlength, hcolon⟩ := Spaced.skip ha (by decide)
  obtain ⟨u, b, rfl, hu, hb⟩ := hv.exists_of_append
  simp only [List.length_append, List.length_cons, List.length_nil] at hlength
  refine ⟨b, hb, by omega, ?_⟩
  have hvalue := hback u hu fuel (by omega) (b ++ rest) (hends b hb)
  rw [← List.append_assoc] at hvalue
  exact readMember_colon name (hcolon rest) hvalue value.reading_stop

/-- **Members are read up to the brace.** -/
theorem readMembers_spaced {members : List (StringLiteral × Spelling)}
    (hback : ∀ m ∈ members, m.2.ReadsBack) {first : Bool} {s : List Char}
    (hs : Spaced (memberTokens first members) s) {fuel : Nat} (hfuel : 3 * s.length ≤ fuel)
    (rest : List Char) :
    readMembers fuel first (s ++ rest) = (memberReadings members, none, rest) := by
  induction members generalizing first s fuel with
  | nil =>
    obtain ⟨u, hu, hlength, hskip⟩ := Spaced.skip hs (by decide)
    cases hu
    rw [List.length_cons] at hlength
    obtain ⟨fuel, rfl⟩ : ∃ n, fuel = n + 1 := ⟨fuel - 1, by omega⟩
    exact readMembers_end (hskip rest)
  | cons m members ih =>
    obtain ⟨name, value⟩ := m
    obtain ⟨hvalue, hmembers⟩ := List.forall_mem_cons.mp hback
    -- after the comma, if there is one, come the name, the value and what follows it
    have hgo : ∀ v, Spaced (name.text :: [':'] :: (value.tokens ++ memberTokens false members)) v →
        ∃ u, 0 < v.length ∧ skipBlanks (v ++ rest) = '"' :: u ∧
          ∀ n, 3 * v.length ≤ n + 1 →
            readMember n ('"' :: u) = (memberReadings ((name, value) :: members), none, rest) := by
      intro v hv
      obtain ⟨a, ha, hlength, hskip⟩ := Spaced.skip (c := '"') hv (by decide)
      simp only [List.length_append, List.length_cons, List.length_nil] at hlength
      refine ⟨_, by omega, hskip rest, fun n hn => ?_⟩
      obtain ⟨n, rfl⟩ : ∃ k, n = k + 1 := ⟨n - 1, by omega⟩
      obtain ⟨b, hb, hshort, hread⟩ := readMember_spaced name hvalue ha
        (show 3 * a.length ≤ n + 1 by omega) fun b hb => (endsNumeral_memberTokens hb rest).1
      rw [StringLiteral.text, List.cons_append] at hread
      rw [hread, ih hmembers hb (by omega)]
      rfl
    cases first with
    | true =>
      obtain ⟨u, hpos, hskip, hread⟩ := hgo s hs
      obtain ⟨fuel, rfl⟩ : ∃ n, fuel = n + 1 := ⟨fuel - 1, by omega⟩
      rw [readMembers_first hskip]
      exact hread fuel hfuel
    | false =>
      obtain ⟨v, hv, hlength, hcomma⟩ := Spaced.skip (c := ',') (t := []) hs (by decide)
      obtain ⟨u, hpos, hskip, hread⟩ := hgo v hv
      rw [List.length_cons, List.nil_append] at hlength
      obtain ⟨fuel, rfl⟩ : ∃ n, fuel = n + 1 := ⟨fuel - 1, by omega⟩
      rw [readMembers_comma (hcomma rest) hskip]
      exact hread fuel (by omega)

/-! ### Any value -/

theorem literal_readsBack (l : Literal) : (literal l).ReadsBack := by
  intro s hs fuel hfuel rest hrest
  obtain ⟨c, t, htext, hblank, -, -, hbracket, hbrace⟩ := l.text_head
  rw [tokens, htext] at hs
  obtain ⟨u, hu, hlength, hskip⟩ := hs.skip hblank
  cases hu
  rw [List.length_cons] at hlength
  obtain ⟨fuel, rfl⟩ : ∃ n, fuel = n + 1 := ⟨fuel - 1, by omega⟩
  have hread := l.readScalar_append hrest
  rw [htext, List.cons_append] at hread
  rw [readValue_scalar (hskip rest) hbracket hbrace]
  exact hread

theorem array_readsBack {items : List Spelling} (h : ∀ w ∈ items, w.ReadsBack) :
    (array items).ReadsBack := by
  intro s hs fuel hfuel rest _
  obtain ⟨u, hu, hlength, hskip⟩ := Spaced.skip hs (by decide)
  rw [List.length_cons, List.nil_append] at hlength
  obtain ⟨fuel, rfl⟩ : ∃ n, fuel = n + 1 := ⟨fuel - 1, by omega⟩
  rw [readValue_array (hskip rest), List.nil_append, readItems_spaced h hu (by omega)]
  rfl

theorem object_readsBack {members : List (StringLiteral × Spelling)}
    (h : ∀ m ∈ members, m.2.ReadsBack) : (object members).ReadsBack := by
  intro s hs fuel hfuel rest _
  obtain ⟨u, hu, hlength, hskip⟩ := Spaced.skip hs (by decide)
  rw [List.length_cons, List.nil_append] at hlength
  obtain ⟨fuel, rfl⟩ : ∃ n, fuel = n + 1 := ⟨fuel - 1, by omega⟩
  rw [readValue_object (hskip rest), List.nil_append, readMembers_spaced h hu (by omega)]
  rfl

/-- **A value is read off the front of a text**, with any blanks in it. -/
theorem readValue_spaced : (w : Spelling) → w.ReadsBack
  | .literal l => literal_readsBack l
  | .array items => array_readsBack fun w _ => readValue_spaced w
  | .object members => object_readsBack fun m _ => readValue_spaced m.2
termination_by w => w
decreasing_by
  · rename_i hitem
    have := List.sizeOf_lt_of_mem hitem
    simp_wf
    omega
  · rename_i hm
    have := List.sizeOf_lt_of_mem hm
    obtain ⟨name, value⟩ := m
    simp_wf
    simp at this
    omega

/-- **A text of a value**: its tokens with blanks in front of them and at the end. -/
def IsText (w : Spelling) (s : List Char) : Prop :=
  ∃ front blanks, s = front ++ blanks ∧ Spaced w.tokens front ∧ Blank blanks

/-- **A text is read as the value that it spells**, and nothing is left. -/
theorem IsText.readingOfText {w : Spelling} {s : List Char} (h : w.IsText s) :
    Reading.ofText s = (w.reading, []) := by
  obtain ⟨front, blanks, rfl, hfront, hblanks⟩ := h
  have hends : EndsNumeral blanks := by
    have hends := EndsNumeral.blanks_append hblanks endsNumeral_nil
    rwa [List.append_nil] at hends
  have hread := w.readValue_spaced front hfront (3 * (front ++ blanks).length + 3)
    (by rw [List.length_append]; omega) blanks hends
  unfold Reading.ofText
  rw [hread]
  dsimp only
  rw [skipBlanks_of_blank hblanks]

/-- Tokens without blanks make up a text. -/
theorem isText_flatten (w : Spelling) : w.IsText w.tokens.flatten :=
  ⟨_, [], (List.append_nil _).symm, .flatten _, nofun⟩

end Spelling

end Academy
