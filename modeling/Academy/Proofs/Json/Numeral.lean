import Academy.Json.Codec
import Academy.Proofs.Text.Digits

/-!
# Numerals within a text

What a numeral is has to be known before the text that it stands in: the
reader goes on for as long as it finds digits, a point or an exponent, and
what comes after a number in a text is none of these. So a numeral that
is read to its end alone is read in the same way wherever it stands
(`readNumeral_append`).

What is a numeral is said here without the reader (`Numeral.WrittenAs`),
and the reader takes these texts for numerals and no others.
-/

namespace Academy

/-- A text that does not continue a numeral. -/
def EndsNumeral (s : List Char) : Prop :=
  ∀ c ∈ s.head?, c.isDigit = false ∧ c ≠ '.' ∧ c ≠ 'e' ∧ c ≠ 'E'

theorem EndsNumeral.noDigitFirst {s : List Char} (h : EndsNumeral s) : NoDigitFirst s :=
  fun c hc => (h c hc).1

theorem endsNumeral_nil : EndsNumeral [] := nofun

/-- A numeral that is complete is a scalar, of whatever worth. -/
theorem numeralReading_eq (n : Numeral) : ∃ used, numeralReading n = .scalar used none := by
  unfold numeralReading
  split
  · exact ⟨_, rfl⟩
  · exact ⟨_, rfl⟩

/-- A numeral that does not break off. It may still be too large for a number,
which does not keep what comes after it from being read. -/
def Reading.Unbroken (r : Reading) : Prop :=
  ∀ f g, r ≠ .scalar (.error f) (some g)

theorem brokenNumeral_ne {s t : List Char} {r : Reading} (hr : r.Unbroken) :
    brokenNumeral s ≠ (r, t) := by
  rintro h
  cases s with
  | nil => exact hr _ _ (congrArg Prod.fst h).symm
  | cons c s => exact hr _ _ (congrArg Prod.fst h).symm

section

variable {negative : Bool} {whole fraction s t : List Char} {r : Reading}

theorem readExponent_of_ends (ht : EndsNumeral t) :
    readExponent negative whole fraction t
      = (numeralReading ⟨negative, whole, fraction, none⟩, t) := by
  cases t with
  | nil => rfl
  | cons c t =>
    obtain ⟨-, -, he, hE⟩ := ht c rfl
    rw [readExponent, if_neg (not_or.mpr ⟨he, hE⟩)]

theorem splitSign_append (s t : List Char) (hs : s ≠ []) :
    splitSign (s ++ t) = ((splitSign s).1, (splitSign s).2 ++ t) := by
  cases s with
  | nil => exact absurd rfl hs
  | cons c s =>
    rw [List.cons_append]
    by_cases hminus : c = '-'
    · subst hminus
      rfl
    · by_cases hplus : c = '+'
      · subst hplus
        rfl
      · have hneither : ∀ u, splitSign (c :: u) = (false, c :: u) := by
          intro u
          unfold splitSign
          split
          · next h => exact absurd (List.cons.inj h).1 hminus
          · next h => exact absurd (List.cons.inj h).1 hplus
          · rfl
        rw [hneither, hneither, List.cons_append]

theorem readExponent_append (h : readExponent negative whole fraction s = (r, []))
    (hr : r.Unbroken) (ht : EndsNumeral t) :
    readExponent negative whole fraction (s ++ t) = (r, t) := by
  cases s with
  | nil =>
    obtain rfl : numeralReading ⟨negative, whole, fraction, none⟩ = r := congrArg Prod.fst h
    exact readExponent_of_ends ht
  | cons c s =>
    rw [List.cons_append, readExponent]
    rw [readExponent] at h
    by_cases he : c = 'e' ∨ c = 'E'
    · rw [if_pos he] at h ⊢
      by_cases hs : s = []
      · -- nothing after the letter is no exponent
        subst hs
        exact absurd (show brokenNumeral [] = (r, []) from h) (brokenNumeral_ne hr)
      · rw [splitSign_append s t hs]
        dsimp only at h ⊢
        rw [splitDigits_append_of_ne ht.noDigitFirst]
        split at h
        · exact absurd h (brokenNumeral_ne hr)
        · next hdigits =>
          obtain ⟨hreading, hrest⟩ := Prod.mk.inj h
          dsimp only
          rw [if_neg hdigits, hreading, hrest, List.nil_append]
    · rw [if_neg he] at h
      exact nomatch congrArg Prod.snd h

/-- A numeral is complete where its reading goes on after it. -/
theorem readMagnitude_append (h : readMagnitude negative s = (r, [])) (hr : r.Unbroken)
    (ht : EndsNumeral t) : readMagnitude negative (s ++ t) = (r, t) := by
  unfold readMagnitude at h ⊢
  rw [splitDigits_append_of_ne ht.noDigitFirst]
  generalize splitDigits s = parts at h ⊢
  obtain ⟨whole, rest⟩ := parts
  dsimp only at h ⊢
  split at h
  · exact absurd h (brokenNumeral_ne hr)
  · exact absurd (congrArg Prod.fst h).symm (hr _ _)
  · split at h
    · next rest =>
      show (if (splitDigits (rest ++ t)).1 = [] then brokenNumeral (splitDigits (rest ++ t)).2
        else readExponent negative whole (splitDigits (rest ++ t)).1 (splitDigits (rest ++ t)).2)
          = (r, t)
      rw [splitDigits_append_of_ne ht.noDigitFirst]
      split at h
      · exact absurd h (brokenNumeral_ne hr)
      · next hfraction =>
        dsimp only
        rw [if_neg hfraction]
        exact readExponent_append h hr ht
    · next hpoint =>
      rw [← readExponent_append h hr ht]
      split
      · next rest' heq =>
        -- the point would have to come from what follows
        cases rest with
        | nil => exact absurd rfl (ht '.' (by rw [show t = '.' :: rest' from heq]; rfl)).2.1
        | cons c rest => exact (hpoint rest (congrArg (· :: rest) (List.cons.inj heq).1)).elim
      · rfl

/-- A numeral that does not begin with a minus has no sign. -/
theorem readNumeral_of_head_ne (h : s.head? ≠ some '-') :
    readNumeral s = readMagnitude false s := by
  unfold readNumeral
  split
  · exact absurd rfl h
  · rfl

/-- What is read without a sign does not begin with a minus. -/
theorem readNumeral_of_readMagnitude (h : readMagnitude false s = (r, t)) (hr : r.Unbroken) :
    readNumeral s = (r, t) := by
  rw [← h]
  refine readNumeral_of_head_ne fun hminus => ?_
  cases s with
  | nil => exact nomatch hminus
  | cons c s =>
    obtain rfl := Option.some.inj hminus
    exact absurd (show brokenNumeral ('-' :: s) = (r, t) from h) (brokenNumeral_ne hr)

theorem readNumeral_append (h : readNumeral s = (r, [])) (hr : r.Unbroken)
    (ht : EndsNumeral t) : readNumeral (s ++ t) = (r, t) := by
  cases s with
  | nil => exact absurd (show brokenNumeral [] = (r, []) from h) (brokenNumeral_ne hr)
  | cons c s =>
    by_cases hminus : c = '-'
    · subst hminus
      exact readMagnitude_append (s := s) h hr ht
    · have hplain : ∀ u, readNumeral (c :: u) = readMagnitude false (c :: u) :=
        fun u => readNumeral_of_head_ne fun e => hminus (Option.some.inj e)
      rw [hplain] at h
      rw [List.cons_append, hplain]
      exact readMagnitude_append (s := c :: s) h hr ht

/-! ## What a complete numeral is made of -/

/-- **Digits that a numeral can begin with**: there are some, and no zero stands
in front of another. -/
structure Leading (whole : List Char) : Prop where
  /-- They are digits. -/
  isDigit : ∀ c ∈ whole, c.isDigit = true
  /-- There is one at least. -/
  ne_nil : whole ≠ []
  /-- No zero stands in front of another digit. -/
  no_zero : ∀ c t, whole ≠ '0' :: c :: t

namespace Numeral

/-- A point and digits, or neither. -/
inductive PointText : List Char → List Char → Prop
  | absent : PointText [] []
  | present {fraction : List Char} : (∀ c ∈ fraction, c.isDigit = true) → fraction ≠ [] →
    PointText fraction ('.' :: fraction)

/-- The sign of an exponent. A plus may be left out. -/
inductive SignText : Bool → List Char → Prop
  | minus : SignText true ['-']
  | plus : SignText false ['+']
  | absent : SignText false []

/-- A letter, a sign and digits, or nothing. -/
inductive ExponentText : Option (Bool × List Char) → List Char → Prop
  | absent : ExponentText none []
  | present {letter : Char} {down : Bool} {sign digits : List Char} :
    letter = 'e' ∨ letter = 'E' → SignText down sign → (∀ c ∈ digits, c.isDigit = true) →
    digits ≠ [] → ExponentText (some (down, digits)) (letter :: (sign ++ digits))

/-- **How a numeral is written**: a minus or nothing, digits, and after them a
point with digits and an exponent, each of which may be left out. -/
inductive WrittenAs : Numeral → List Char → Prop
  | parts {negative : Bool} {whole fraction point e : List Char}
    {exponent : Option (Bool × List Char)} :
    Leading whole → PointText fraction point → ExponentText exponent e →
    WrittenAs ⟨negative, whole, fraction, exponent⟩
      ((if negative then ['-'] else []) ++ (whole ++ (point ++ e)))

theorem splitSign_append_digits {down : Bool} {sign digits : List Char} (hsign : SignText down sign)
    (hdigits : ∀ c ∈ digits, c.isDigit = true) : splitSign (sign ++ digits) = (down, digits) := by
  cases hsign with
  | minus => rfl
  | plus => rfl
  | absent => exact splitSign_digits hdigits

theorem exists_signText (s : List Char) :
    ∃ sign, SignText (splitSign s).1 sign ∧ s = sign ++ (splitSign s).2 := by
  unfold splitSign
  split
  · exact ⟨['-'], .minus, rfl⟩
  · exact ⟨['+'], .plus, rfl⟩
  · exact ⟨[], .absent, rfl⟩

theorem ExponentText.endsWhole {exponent : Option (Bool × List Char)} {e : List Char}
    (h : ExponentText exponent e) : NoDigitFirst e ∧ e.head? ≠ some '.' := by
  cases h with
  | absent => exact ⟨nofun, nofun⟩
  | present hletter =>
    rcases hletter with rfl | rfl <;>
    · refine ⟨fun c hc => ?_, fun h => nomatch h⟩
      obtain rfl := Option.some.inj hc
      rfl

end Numeral

open Numeral

/-! ### What is written is read -/

theorem readExponent_text {e : List Char} {exponent : Option (Bool × List Char)}
    (h : ExponentText exponent e) :
    readExponent negative whole fraction e
      = (numeralReading ⟨negative, whole, fraction, exponent⟩, []) := by
  cases h with
  | absent => rfl
  | present hletter hsign hdigits hne =>
    rw [readExponent, if_pos hletter, splitSign_append_digits hsign hdigits]
    dsimp only
    rw [splitDigits_of_digits hdigits]
    exact if_neg hne

theorem readMagnitude_point (hwhole : Leading whole) (hdigits : ∀ c ∈ fraction, c.isDigit = true)
    (hsome : fraction ≠ []) (ht : NoDigitFirst t) :
    readMagnitude negative (whole ++ '.' :: (fraction ++ t))
      = readExponent negative whole fraction t := by
  rw [readMagnitude, splitDigits_append hwhole.isDigit
    (fun c hc => by obtain rfl := Option.some.inj hc; rfl)]
  dsimp only
  split
  · exact absurd rfl hwhole.ne_nil
  · exact absurd rfl (hwhole.no_zero _ _)
  · show (if (splitDigits (fraction ++ t)).1 = [] then brokenNumeral (splitDigits (fraction ++ t)).2
      else readExponent negative whole (splitDigits (fraction ++ t)).1
        (splitDigits (fraction ++ t)).2) = _
    rw [splitDigits_append hdigits ht, if_neg hsome]

theorem readMagnitude_noPoint (hwhole : Leading whole) (ht : NoDigitFirst t)
    (hpoint : t.head? ≠ some '.') :
    readMagnitude negative (whole ++ t) = readExponent negative whole [] t := by
  rw [readMagnitude, splitDigits_append hwhole.isDigit ht]
  dsimp only
  split
  · exact absurd rfl hwhole.ne_nil
  · exact absurd rfl (hwhole.no_zero _ _)
  · split
    · exact absurd rfl hpoint
    · rfl

theorem readMagnitude_text {point e : List Char} {exponent : Option (Bool × List Char)}
    (hwhole : Leading whole) (hpoint : PointText fraction point) (he : ExponentText exponent e) :
    readMagnitude negative (whole ++ (point ++ e))
      = (numeralReading ⟨negative, whole, fraction, exponent⟩, []) := by
  obtain ⟨hdigit, hhead⟩ := he.endsWhole
  rw [← readExponent_text he]
  cases hpoint with
  | absent => exact readMagnitude_noPoint hwhole hdigit hhead
  | present hdigits hne => exact readMagnitude_point hwhole hdigits hne hdigit

/-- **What is written as a numeral is read as this numeral.** -/
theorem Numeral.WrittenAs.readNumeral {n : Numeral} (h : n.WrittenAs s) :
    readNumeral s = (numeralReading n, []) := by
  cases h with
  | @parts negative whole fraction point e exponent hwhole hpoint he =>
    cases negative with
    | true => exact readMagnitude_text hwhole hpoint he
    | false =>
      refine (readNumeral_of_head_ne fun hminus => ?_).trans (readMagnitude_text hwhole hpoint he)
      rcases hhead : whole with _ | ⟨c, rest⟩
      · exact hwhole.ne_nil hhead
      · subst hhead
        obtain rfl : c = '-' := Option.some.inj hminus
        exact nomatch hwhole.isDigit '-' List.mem_cons_self

/-! ### What is read was written -/

theorem exists_exponentText (h : readExponent negative whole fraction s = (r, t))
    (hr : r.Unbroken) :
    ∃ exponent e, ExponentText exponent e ∧ s = e ++ t ∧
      r = numeralReading ⟨negative, whole, fraction, exponent⟩ := by
  cases s with
  | nil =>
    obtain ⟨rfl, rfl⟩ := Prod.mk.inj h
    exact ⟨none, [], .absent, rfl, rfl⟩
  | cons c s =>
    rw [readExponent] at h
    by_cases hletter : c = 'e' ∨ c = 'E'
    · rw [if_pos hletter] at h
      obtain ⟨sign, hsign, hs⟩ := exists_signText s
      obtain ⟨hdigits, hrest⟩ := splitDigits_spec (splitSign s).2
      dsimp only at h
      split at h
      · exact absurd h (brokenNumeral_ne hr)
      · next hne =>
        obtain ⟨hreading, rfl⟩ := Prod.mk.inj h
        refine ⟨_, _, .present hletter hsign hdigits hne, ?_, hreading.symm⟩
        rw [List.cons_append, List.append_assoc, ← hrest, ← hs]
    · rw [if_neg hletter] at h
      obtain ⟨rfl, rfl⟩ := Prod.mk.inj h
      exact ⟨none, [], .absent, rfl, rfl⟩

theorem exists_magnitudeText (h : readMagnitude negative s = (r, t)) (hr : r.Unbroken) :
    ∃ whole fraction exponent point e, Leading whole ∧ PointText fraction point ∧
      ExponentText exponent e ∧ s = whole ++ (point ++ e) ++ t ∧
      r = numeralReading ⟨negative, whole, fraction, exponent⟩ := by
  obtain ⟨hdigits, hsplit⟩ := splitDigits_spec s
  unfold readMagnitude at h
  generalize splitDigits s = parts at h hsplit hdigits
  obtain ⟨whole, rest⟩ := parts
  dsimp only at h hsplit hdigits
  split at h
  · exact absurd h (brokenNumeral_ne hr)
  · exact absurd (congrArg Prod.fst h).symm (hr _ _)
  · next hne hzero =>
    have hwhole : Leading whole := ⟨hdigits, hne, hzero⟩
    split at h
    · next rest =>
      split at h
      · exact absurd h (brokenNumeral_ne hr)
      · next hfraction =>
        obtain ⟨exponent, e, he, hrest, hreading⟩ := exists_exponentText h hr
        obtain ⟨hdigits', hsplit'⟩ := splitDigits_spec rest
        refine ⟨whole, _, exponent, _, e, hwhole, .present hdigits' hfraction, he, ?_, hreading⟩
        rw [hsplit, List.append_assoc, List.append_assoc, List.cons_append, ← hrest, ← hsplit']
    · obtain ⟨exponent, e, he, rfl, hreading⟩ := exists_exponentText h hr
      refine ⟨whole, [], exponent, [], e, hwhole, .absent, he, ?_, hreading⟩
      rw [hsplit, List.nil_append, List.append_assoc]

/-- **What is read as a numeral was written as one.** -/
theorem exists_writtenAs (h : readNumeral s = (r, t)) (hr : r.Unbroken) :
    ∃ n u, WrittenAs n u ∧ s = u ++ t ∧ r = numeralReading n := by
  unfold readNumeral at h
  split at h
  · obtain ⟨whole, fraction, exponent, point, e, hwhole, hpoint, he, rfl, hreading⟩ :=
      exists_magnitudeText h hr
    exact ⟨_, _, .parts hwhole hpoint he, rfl, hreading⟩
  · obtain ⟨whole, fraction, exponent, point, e, hwhole, hpoint, he, rfl, hreading⟩ :=
      exists_magnitudeText h hr
    exact ⟨_, _, .parts hwhole hpoint he, rfl, hreading⟩

end

/-! ## Their characters -/

/-- The characters of numerals, as they are written. -/
def IsNumeralChar (c : Char) : Prop :=
  c.isDigit = true ∨ c ∈ ['-', '+', '.', 'e']

/-- The characters of numerals are no blanks; they begin no other value, and
end nothing that a value stands in. -/
theorem isNumeralChar_ne {c : Char} (h : IsNumeralChar c) :
    isJsonBlank c = false ∧ c ≠ ']' ∧ c ≠ '}' ∧ c ≠ '[' ∧ c ≠ '{' ∧ c ≠ 'n' ∧ c ≠ 't' ∧
      c ≠ 'f' ∧ c ≠ '"' := by
  rcases h with hdigit | hsign
  · refine ⟨?_, ?_, ?_, ?_, ?_, ?_, ?_, ?_, ?_⟩
    · rw [← Bool.not_eq_true]
      intro hblank
      unfold isJsonBlank at hblank
      simp only [Bool.or_eq_true, decide_eq_true_eq] at hblank
      rcases hblank with ((rfl | rfl) | rfl) | rfl <;> exact nomatch hdigit
    all_goals rintro rfl; exact nomatch hdigit
  · simp only [List.mem_cons, List.not_mem_nil, or_false] at hsign
    rcases hsign with rfl | rfl | rfl | rfl <;> decide

theorem skipBlanks_cons {c : Char} (hc : isJsonBlank c = false) (s : List Char) :
    skipBlanks (c :: s) = c :: s :=
  List.dropWhile_cons_of_neg (Bool.eq_false_iff.mp hc)

end Academy
