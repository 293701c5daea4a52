import Academy.Calendar.Text
import Academy.Proofs.Calendar.Date
import Academy.Proofs.Text.Digits

/-!
# An instant is read back to the millisecond

The text of an instant has a fixed number of digits for each of its parts,
so it is read part by part, and each part is the number that was written.
What remains is that the parts of an instant make up the instant: its day
is the day of its date, its second of the day is made of an hour, a minute
and a second, and what is finer than a millisecond is not written.

Years before year 0 and after 9999 have no four digits, and the reader
takes no others. Leap seconds need no exception: the sixtieth second that
is written for them is read as one.
-/

namespace Academy

/-! ## Numbers of a fixed width -/

theorem isDigit_of_mem_paddedDigits {width n : Nat} {c : Char} (h : c ∈ paddedDigits width n) :
    c.isDigit = true := by
  rcases List.mem_append.mp h with h | h
  · exact isDigit_of_mem_zeros h
  · exact isDigit_of_mem_toDigits h

@[simp] theorem length_paddedDigits {width n : Nat} (hwidth : 0 < width) (hn : n < 10 ^ width) :
    (paddedDigits width n).length = width := by
  have hlength := (Nat.length_toDigits_le_iff (b := 10) (by decide) hwidth).mpr hn
  unfold paddedDigits
  rw [List.length_append, List.length_replicate]
  omega

@[simp]
theorem digitsValue_paddedDigits (width n : Nat) : digitsValue (paddedDigits width n) = n := by
  simp [paddedDigits]

/-- A zero in front of padded digits is there for want of other digits, so that
the text is not longer than the width. -/
theorem length_of_paddedDigits {n width : Nat} (h0 : 0 < n) {s : List Char}
    (h : paddedDigits (width + 1) n = '0' :: s) : s.length = width := by
  unfold paddedDigits at h
  dsimp only at h
  by_cases hfew : (Nat.toDigits 10 n).length ≤ width
  · have hsize := congrArg List.length h
    rw [List.length_append, List.length_replicate, List.length_cons] at hsize
    omega
  · rw [Nat.sub_eq_zero_of_le (Nat.not_le.mp hfew), List.replicate_zero, List.nil_append] at h
    exact absurd h (toDigits_ne_zero_cons h0 s)

/-- **A number of a fixed width is read as it was written.** -/
theorem readDigits?_paddedDigits {width n : Nat} (hwidth : 0 < width) (hn : n < 10 ^ width)
    (s : List Char) : readDigits? width (paddedDigits width n ++ s) = some (n, s) := by
  have hlength := length_paddedDigits hwidth hn
  unfold readDigits?
  rw [List.take_left' hlength, List.drop_left' hlength]
  dsimp only
  rw [if_pos ⟨hlength, List.all_eq_true.mpr fun c => isDigit_of_mem_paddedDigits⟩]
  simp

theorem readDigits?_cons_of_not_digit {width : Nat} {c : Char} (hc : c.isDigit = false)
    (s : List Char) : readDigits? (width + 1) (c :: s) = none := by
  unfold readDigits?
  rw [List.take_succ_cons]
  refine if_neg fun h => ?_
  rw [List.all_cons, hc] at h
  exact Bool.false_ne_true h.2

theorem readOneOf?_cons {allowed : List Char} {c : Char} (h : c ∈ allowed) (s : List Char) :
    readOneOf? allowed (c :: s) = some s :=
  if_pos h

/-! ## Dates and times of day -/

theorem Date.month_day_lt {d : Date} (h : d.isValid = true) : d.month < 10 ^ 2 ∧ d.day < 10 ^ 2 := by
  unfold isValid at h
  rw [decide_eq_true_iff] at h
  obtain ⟨-, hmonth, -, hday⟩ := h
  have hlength : daysInMonth d.year d.month ≤ 31 := by
    unfold daysInMonth
    split
    · split <;> decide
    · decide
    · decide
    · decide
    · decide
    · decide
  omega

/-- **A date of four-digit years is read as it was written.** -/
theorem Date.read?_text {d : Date} (h : d.isValid = true) (hyear : 0 ≤ d.year ∧ d.year ≤ 9999)
    (s : List Char) : Date.read? (d.text ++ s) = some (d, s) := by
  obtain ⟨hmonth, hday⟩ := month_day_lt h
  have htext : d.text ++ s = paddedDigits 4 d.year.toNat ++ '-' :: (paddedDigits 2 d.month ++
      '-' :: (paddedDigits 2 d.day ++ s)) := by
    unfold Date.text yearText
    rw [if_pos hyear]
    simp only [List.append_assoc, List.cons_append]
  rw [htext, Date.read?, readDigits?_paddedDigits (by decide) (by omega)]
  simp only [Option.bind_eq_bind, Option.bind_some]
  rw [readOneOf?_cons (by decide), Option.bind_some, readDigits?_paddedDigits (by decide) hmonth]
  simp only [Option.bind_some]
  rw [readOneOf?_cons (by decide), Option.bind_some, readDigits?_paddedDigits (by decide) hday]
  simp only [Option.bind_some]
  rw [Int.toNat_of_nonneg hyear.1, if_pos h]

/-- Other years are written with a sign, and no date is read there. -/
theorem Date.read?_text_eq_none {d : Date} (hyear : ¬ (0 ≤ d.year ∧ d.year ≤ 9999))
    (s : List Char) : Date.read? (d.text ++ s) = none := by
  have hsign : (if d.year < 0 then '-' else '+').isDigit = false := by
    split
    · rfl
    · rfl
  unfold Date.text yearText
  rw [if_neg hyear]
  simp only [List.cons_append, List.append_assoc]
  rw [Date.read?, readDigits?_cons_of_not_digit hsign]
  rfl

theorem readTimeOfDay?_text {hour minute second : Nat} (hhour : hour ≤ 23) (hminute : minute ≤ 59)
    (hsecond : second ≤ 60) (s : List Char) :
    readTimeOfDay? (paddedDigits 2 hour ++ ':' :: (paddedDigits 2 minute ++
      ':' :: (paddedDigits 2 second ++ s))) = some ((hour, minute, second), s) := by
  rw [readTimeOfDay?, readDigits?_paddedDigits (by decide) (by omega)]
  simp only [Option.bind_eq_bind, Option.bind_some]
  rw [readOneOf?_cons (by decide), Option.bind_some, readDigits?_paddedDigits (by decide) (by omega)]
  simp only [Option.bind_some]
  rw [readOneOf?_cons (by decide), Option.bind_some, readDigits?_paddedDigits (by decide) (by omega)]
  simp only [Option.bind_some]
  rw [if_pos ⟨hhour, hminute, hsecond⟩]

/-- Three digits after the point are milliseconds. -/
theorem readFraction?_text {millis : Nat} (h : millis < 10 ^ 3) :
    readFraction? ('.' :: (paddedDigits 3 millis ++ ['Z'])) = some (millis * 1000000, ['Z']) := by
  have hlength := length_paddedDigits (by decide) h
  have hsplit : splitDigits (paddedDigits 3 millis ++ ['Z']) = (paddedDigits 3 millis, ['Z']) :=
    splitDigits_append (fun c => isDigit_of_mem_paddedDigits)
      (fun c hc => by obtain rfl := Option.some.inj hc; rfl)
  have htake : (paddedDigits 3 millis ++ List.replicate 9 '0').take 9
      = paddedDigits 3 millis ++ List.replicate 6 '0' := by
    rw [List.take_append, hlength, List.take_of_length_le (by rw [hlength]; decide)]
    rfl
  rw [readFraction?, hsplit]
  dsimp only
  rw [if_neg (List.ne_nil_of_length_eq_add_one hlength), htake, digitsValue_append,
    digitsValue_paddedDigits, digitsValue_zeros, List.length_replicate, Nat.add_zero]
  norm_num only

namespace Instant

/-! ## Instants -/

/-- **An instant of a year with four digits**, in universal time. -/
def FourDigitYear (t : Instant) : Prop :=
  0 ≤ (Date.ofDays t.day).year ∧ (Date.ofDays t.day).year ≤ 9999

instance (t : Instant) : Decidable t.FourDigitYear :=
  inferInstanceAs (Decidable (_ ∧ _))

@[simp] theorem of?_eq_some (t : Instant) : of? t.seconds t.nanos = some t :=
  dif_pos t.nanos_lt

/-- The second that is written for an instant: 60 in a leap second. -/
def writtenSecond (t : Instant) : Nat :=
  t.secondOfDay % 60 + if t.isLeap then 1 else 0

theorem text_eq (t : Instant) :
    t.text = (Date.ofDays t.day).text ++ 'T' :: (paddedDigits 2 (t.secondOfDay / 3600) ++
      ':' :: (paddedDigits 2 (t.secondOfDay / 60 % 60) ++ ':' :: (paddedDigits 2 t.writtenSecond ++
        '.' :: (paddedDigits 3 (t.nanos % 1000000000 / 1000000) ++ ['Z'])))) := by
  unfold text writtenSecond
  simp only [List.append_assoc, List.cons_append]

theorem secondOfDay_lt (t : Instant) : t.secondOfDay < 86400 := by
  unfold secondOfDay daySeconds
  omega

/-- The day and the second of the day make up the second. -/
theorem seconds_eq (t : Instant) :
    (t.day - Date.daysBeforeYear 1970) * daySeconds + t.secondOfDay = t.seconds := by
  unfold day secondOfDay daySeconds
  omega

/-- Only the last second of a minute has room for a leap second, which is
written as the sixtieth. -/
theorem writtenSecond_of_isLeap {t : Instant} (h : t.isLeap = true) :
    t.secondOfDay % 60 = 59 ∧ t.writtenSecond = 60 := by
  have hleap : 1000000000 ≤ t.nanos := of_decide_eq_true h
  have hnanos := t.nanos_lt
  have hlast : t.secondOfDay % 60 = 59 := by
    unfold secondOfDay daySeconds
    omega
  unfold writtenSecond
  rw [hlast, h]
  exact ⟨rfl, rfl⟩

theorem writtenSecond_of_not_isLeap {t : Instant} (h : t.isLeap = false) :
    t.writtenSecond = t.secondOfDay % 60 := by
  unfold writtenSecond
  rw [h]
  rfl

theorem writtenSecond_le (t : Instant) : t.writtenSecond ≤ 60 := by
  cases h : t.isLeap with
  | true => exact (writtenSecond_of_isLeap h).2.le
  | false =>
    rw [writtenSecond_of_not_isLeap h]
    omega

/-- **An instant is read back to the millisecond.** -/
theorem ofText?_text {t : Instant} (h : t.FourDigitYear) : ofText? t.text = some t.truncate := by
  obtain ⟨hvalid, hdays⟩ := Date.ofDays_spec t.day
  have hlt := t.secondOfDay_lt
  have hseconds := t.seconds_eq
  rw [text_eq, ofText?, Date.read?_text hvalid h]
  simp only [Option.bind_eq_bind, Option.bind_some]
  rw [readOneOf?_cons (by decide), Option.bind_some,
    readTimeOfDay?_text (by omega) (by omega) t.writtenSecond_le]
  simp only [Option.bind_some]
  rw [readFraction?_text (by omega)]
  simp only [Option.bind_some, readOffset?]
  rw [if_pos trivial, hdays]
  refine Eq.trans ?_ (of?_eq_some t.truncate)
  cases hleap : t.isLeap with
  | true =>
    -- the sixtieth second stands for the one before it, which runs on
    obtain ⟨hlast, hwritten⟩ := writtenSecond_of_isLeap hleap
    have hlow : 1000000000 ≤ t.nanos := of_decide_eq_true hleap
    have hhigh := t.nanos_lt
    rw [if_pos hwritten, if_pos hwritten]
    refine congrArg₂ of? ?_ ?_
    · show _ = t.seconds
      omega
    · show _ = t.nanos / 1000000 * 1000000
      omega
  | false =>
    have hwritten := writtenSecond_of_not_isLeap hleap
    have hlow : ¬ 1000000000 ≤ t.nanos := of_decide_eq_false hleap
    rw [if_neg (by omega), if_neg (by omega), hwritten]
    refine congrArg₂ of? ?_ ?_
    · show _ = t.seconds
      omega
    · show _ = t.nanos / 1000000 * 1000000
      omega

/-- **What the text of an instant is read as**: nothing where the year has not
four digits. -/
theorem ofText?_text_eq_some_iff {t u : Instant} :
    ofText? t.text = some u ↔ t.FourDigitYear ∧ t.truncate = u := by
  by_cases hyear : t.FourDigitYear
  · rw [ofText?_text hyear, Option.some.injEq, and_iff_right hyear]
  · have hnone : ofText? t.text = none := by
      rw [text_eq, ofText?, Date.read?_text_eq_none hyear]
      rfl
    rw [hnone]
    exact iff_of_false nofun fun h => hyear h.1

end Instant

end Academy
