import Academy.Proofs.Json.Numeral

/-!
# Numbers that survive being written

Whether a number survives being written and read can be asked of its text
alone, since a numeral that is read to its end is read in the same way
wherever it stands. That is how it is asked of binary64 numbers
(`Binary64.Survives`). The digits that are written for them and the
rounding with which they are read are not looked at here. All that is
used is that the text is made of the characters of numerals and that it
has a point or an exponent.
-/

namespace Academy

/-! ## The text of binary64 numbers -/

namespace DecimalStyle

variable {style : DecimalStyle} {d : Decimal} {c : Char}

theorem isNumeralChar_of_mem_toDigits {n : Nat} (h : c ∈ Nat.toDigits 10 n) : IsNumeralChar c :=
  .inl (isDigit_of_mem_toDigits h)

theorem isNumeralChar_of_mem_positional (h : c ∈ style.positional d) : IsNumeralChar c := by
  unfold positional at h
  dsimp only at h
  split at h
  · rw [List.mem_append, List.mem_append] at h
    rcases h with (h | h) | h
    · exact isNumeralChar_of_mem_toDigits h
    · exact .inl (isDigit_of_mem_zeros h)
    · split at h
      · rcases List.mem_cons.mp h with rfl | h
        · exact .inr (by decide)
        · exact .inl (List.mem_singleton.mp h ▸ rfl)
      · exact nomatch h
  · have hpadded : ∀ c ∈ List.replicate
        ((-d.exponent).toNat + 1 - (Nat.toDigits 10 d.digits).length) '0' ++
          Nat.toDigits 10 d.digits, IsNumeralChar c := by
      intro c hc
      rcases List.mem_append.mp hc with hc | hc
      · exact .inl (isDigit_of_mem_zeros hc)
      · exact isNumeralChar_of_mem_toDigits hc
    rw [List.mem_append, List.mem_cons] at h
    rcases h with h | rfl | h
    · exact hpadded c (List.mem_of_mem_take h)
    · exact .inr (by decide)
    · exact hpadded c (List.mem_of_mem_drop h)

theorem isNumeralChar_of_mem_scientific (h : c ∈ scientific d) : IsNumeralChar c := by
  unfold scientific at h
  dsimp only at h
  rw [List.mem_append, List.mem_append, List.mem_cons, List.mem_cons] at h
  rcases h with (h | h) | rfl | h | h
  · exact isNumeralChar_of_mem_toDigits (List.mem_of_mem_take h)
  · split at h
    · exact nomatch h
    · rcases List.mem_cons.mp h with rfl | h
      · exact .inr (by decide)
      · exact isNumeralChar_of_mem_toDigits (List.mem_of_mem_drop h)
  · exact .inr (by decide)
  · rw [h]
    split
    · exact .inr (by decide)
    · exact .inr (by decide)
  · exact isNumeralChar_of_mem_toDigits h

end DecimalStyle

namespace Json

variable {x : Binary64} {c : Char}

theorem realText_eq (hx : x.isFinite = true) :
    realText x = (if x.isNegative then ['-'] else []) ++
      (if x.magnitude = 0 then numberStyle.positional ⟨0, 0⟩
        else numberStyle.layOut (x.shortest numberStyle.tie)) := by
  rw [realText, if_pos hx]
  cases x with
  | finite s m p h => rfl
  | infinite s => exact nomatch hx
  | nan => exact nomatch hx

theorem layOut_eq (d : Decimal) :
    numberStyle.layOut d = numberStyle.positional d ∨
      numberStyle.layOut d = DecimalStyle.scientific d := by
  unfold DecimalStyle.layOut
  dsimp only
  split
  · exact .inl rfl
  · split
    · exact .inl rfl
    · exact .inr rfl

theorem isNumeralChar_of_mem_realText (hx : x.isFinite = true) (h : c ∈ realText x) :
    IsNumeralChar c := by
  rw [realText_eq hx, List.mem_append] at h
  rcases h with h | h
  · split at h
    · rw [List.mem_singleton.mp h]
      exact .inr (by decide)
    · exact nomatch h
  · split at h
    · exact DecimalStyle.isNumeralChar_of_mem_positional h
    · generalize x.shortest numberStyle.tie = d at h
      rcases layOut_eq d with heq | heq
      · exact DecimalStyle.isNumeralChar_of_mem_positional (heq ▸ h)
      · exact DecimalStyle.isNumeralChar_of_mem_scientific (heq ▸ h)

/-- **A binary64 number is not written as a whole number.** -/
theorem point_or_exponent_mem_realText (hx : x.isFinite = true) :
    '.' ∈ realText x ∨ 'e' ∈ realText x := by
  have hpositional : ∀ d, '.' ∈ numberStyle.positional d := by
    intro d
    unfold DecimalStyle.positional
    dsimp only
    split
    · exact List.mem_append_right _ List.mem_cons_self
    · exact List.mem_append_right _ List.mem_cons_self
  rw [realText_eq hx, List.mem_append, List.mem_append]
  generalize x.shortest numberStyle.tie = d
  by_cases hzero : x.magnitude = 0
  · rw [if_pos hzero]
    exact .inl (.inr (hpositional _))
  · rw [if_neg hzero]
    rcases layOut_eq d with heq | heq
    · rw [heq]
      exact .inl (.inr (hpositional d))
    · rw [heq]
      exact .inr (.inr (List.mem_append_right _ List.mem_cons_self))

end Json

/-! ## Numbers that survive -/

/-- A whole text has a value if what is read of it has, and all of it is read. -/
theorem Codec.ofText_eq_ok_iff {α : Type} {c : Codec α} {s : List Char} {a : α} :
    c.ofText s = .ok a ↔
      c.decode Reading.nestingLimit (Reading.ofText s).1 = .ok a ∧ (Reading.ofText s).2 = [] := by
  unfold Codec.ofText
  rcases Reading.ofText s with ⟨reading, rest⟩
  dsimp only
  cases c.decode Reading.nestingLimit reading with
  | error e => exact iff_of_false nofun fun h => nomatch h.1
  | ok b =>
    cases rest with
    | nil => exact ⟨fun h => ⟨h, rfl⟩, fun h => h.1⟩
    | cons c rest => exact iff_of_false nofun fun h => nomatch h.2

/-- **A number survives** if it is read from the text that is written for it. -/
def Binary64.Survives (x : Binary64) : Prop :=
  Codec.binary64.ofText (Codec.binary64.text x) = .ok x

namespace Binary64

variable {x : Binary64}

instance (x : Binary64) : Decidable x.Survives :=
  decidable_of_iff ((Codec.binary64.ofText (Codec.binary64.text x)).toOption = some x) (by
    unfold Survives
    cases Codec.binary64.ofText (Codec.binary64.text x) with
    | error e => exact ⟨nofun, nofun⟩
    | ok y =>
      exact ⟨fun h => congrArg _ (Option.some.inj h), fun h => congrArg _ (Except.ok.inj h)⟩)

theorem Survives.isFinite (h : x.Survives) : x.isFinite = true := by
  by_contra hx
  -- what is not finite is written as `null`, and that is no number
  have hnull : Codec.binary64.text x = ['n', 'u', 'l', 'l'] := by
    show (if x.isFinite then Json.number (.real x) else .null).text = _
    rw [if_neg hx]
    rfl
  unfold Survives at h
  rw [hnull] at h
  have hrefused : Codec.binary64.ofText ['n', 'u', 'l', 'l']
      = .error (.wrongKind (.scalar .null) "f64") := by rfl
  exact nomatch hrefused.symm.trans h

theorem skipBlanks_of_numeralChars {s : List Char} (h : ∀ c ∈ s, IsNumeralChar c) :
    skipBlanks s = s := by
  cases s with
  | nil => rfl
  | cons c s => exact skipBlanks_cons (isNumeralChar_ne (h c List.mem_cons_self)).1 s

/-- A text of the characters of numerals is read as a numeral, or as nothing
that can be used. -/
theorem readValue_of_numeralChars {s : List Char} (h : ∀ c ∈ s, IsNumeralChar c) (fuel : Nat) :
    readValue (fuel + 1) s = Academy.readNumeral s ∨
      ∃ f t, readValue (fuel + 1) s = (.absent, t) ∨ readValue (fuel + 1) s = (.broken f, t) := by
  rw [readValue, skipBlanks_of_numeralChars h]
  cases s with
  | nil => exact .inr ⟨.malformed, [], .inl rfl⟩
  | cons c s =>
    obtain ⟨-, -, -, hbracket, hbrace, hn, ht, hf, hquote⟩ :=
      isNumeralChar_ne (h c List.mem_cons_self)
    split
    · next heq => exact absurd (List.cons.inj heq).1 hbracket
    · next heq => exact absurd (List.cons.inj heq).1 hbrace
    · rw [readScalar, if_neg hn, if_neg ht, if_neg hf, if_neg hquote]
      split
      · exact .inl rfl
      · exact .inr ⟨.malformed, _, .inr rfl⟩

/-- A numeral with a point or an exponent is not a whole number. -/
theorem isWhole_eq_false {n : Numeral} {s : List Char} (h : n.WrittenAs s)
    (hpoint : '.' ∈ s ∨ 'e' ∈ s) : n.isWhole = false := by
  by_contra hwhole
  rw [Bool.not_eq_false] at hwhole
  cases h with
  | @parts negative whole fraction point e exponent hleading htext he =>
    obtain ⟨hfraction, hexponent⟩ := (Bool.and_eq_true _ _).mp hwhole
    obtain rfl := List.isEmpty_iff.mp hfraction
    obtain rfl := Option.isNone_iff_eq_none.mp hexponent
    cases htext with
    | present hdigits hne => exact hne rfl
    | absent =>
      cases he
      -- what is left is a minus and digits
      have hchar : ∀ c ∈ (if negative then ['-'] else []) ++ (whole ++ ([] ++ [])),
          c = '-' ∨ c.isDigit = true := by
        intro c hc
        rw [List.append_nil, List.append_nil] at hc
        rcases List.mem_append.mp hc with hc | hc
        · split at hc
          · exact .inl (List.mem_singleton.mp hc)
          · exact nomatch hc
        · exact .inr (hleading.isDigit c hc)
      rcases hpoint with hmem | hmem <;> rcases hchar _ hmem with h | h <;> exact nomatch h

/-- **What a number that survives is read as**: itself, and all of its text is
read. -/
theorem Survives.readNumeral (h : x.Survives) :
    readNumeral (Json.realText x) = (.scalar (.ok (.number (.real x))) none, []) := by
  have hx := h.isFinite
  have hchars : ∀ c ∈ Json.realText x, IsNumeralChar c :=
    fun c hc => Json.isNumeralChar_of_mem_realText hx hc
  have htext : Codec.binary64.text x = Json.realText x := by
    show (if x.isFinite then Json.number (.real x) else .null).text = _
    rw [if_pos hx]
    rfl
  have hpoint := Json.point_or_exponent_mem_realText hx
  unfold Survives at h
  rw [htext, Codec.ofText_eq_ok_iff] at h
  generalize Json.realText x = s at h hchars hpoint
  obtain ⟨hdecode, hrest⟩ := h
  unfold Reading.ofText at hdecode hrest
  dsimp only at hdecode hrest
  rcases readValue_of_numeralChars hchars (3 * s.length + 2) with hread | ⟨f, t, hread | hread⟩
  · rw [hread] at hdecode hrest
    rcases hreading : Academy.readNumeral s with ⟨r, t⟩
    rw [hreading] at hdecode hrest
    dsimp only at hdecode hrest
    have hunbroken : r.Unbroken := by
      rintro f stop rfl
      exact nomatch hdecode
    obtain ⟨n, u, hn, rfl, rfl⟩ := exists_writtenAs hreading hunbroken
    have ht : t = [] := by
      rwa [skipBlanks_of_numeralChars fun c hc => hchars c (List.mem_append_right _ hc)] at hrest
    subst ht
    -- the text has a point or an exponent, so it was not read as a whole number
    rw [List.append_nil] at hpoint
    have hreal : n.isWhole = false := isWhole_eq_false hn hpoint
    unfold numeralReading Numeral.number? at hdecode ⊢
    rw [hreal] at hdecode ⊢
    simp only [Bool.false_eq_true, false_and, if_false] at hdecode ⊢
    generalize n.toReal = value at hdecode ⊢
    cases value with
    | none => exact nomatch hdecode
    | some y =>
      rw [← show (if n.negative = true then -y else y) = x from Except.ok.inj hdecode]
      rfl
  · rw [hread] at hdecode
    exact nomatch hdecode
  · rw [hread] at hdecode
    exact nomatch hdecode

end Binary64

end Academy
