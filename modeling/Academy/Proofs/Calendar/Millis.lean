import Academy.Proofs.Calendar.Text

/-!
# Instants and their milliseconds

An instant that lies in no leap second is known by its distance from the
beginning of 1970, and where that is a whole number of milliseconds, the
instant is the one that the number gives. The distance is rounded down
when it is made a number of milliseconds, also before 1970, where this is
away from zero. A leap second overlaps with the second after it, so a
number of milliseconds never gives one.

The calendar ends with a year on both sides. All years of four digits are
in it, far away from its ends.
-/

namespace Academy

/-! ## Years -/

theorem Date.daysBeforeYear_mono {year year' : Int} (h : year ≤ year') :
    daysBeforeYear year ≤ daysBeforeYear year' := by
  unfold daysBeforeYear
  omega

theorem Date.le_yearOfDays_iff {year days : Int} :
    year ≤ yearOfDays days ↔ daysBeforeYear year ≤ days := by
  obtain ⟨hlow, hhigh⟩ := yearOfDays_spec days
  constructor
  · intro h
    exact (daysBeforeYear_mono h).trans hlow
  · intro h
    by_contra hlt
    have hnext : yearOfDays days + 1 ≤ year := by omega
    have hmono := daysBeforeYear_mono hnext
    omega

namespace Instant

theorem inCalendar_iff {t : Instant} :
    t.inCalendar = true ↔ firstSecond ≤ t.seconds ∧ t.seconds ≤ lastSecond := by
  unfold inCalendar
  rw [Bool.and_eq_true, decide_eq_true_iff, decide_eq_true_iff]

/-- **The years of the calendar.** -/
theorem inCalendar_iff_year {t : Instant} :
    t.inCalendar = true ↔
      -262143 ≤ (Date.ofDays t.day).year ∧ (Date.ofDays t.day).year ≤ 262142 := by
  have hfirst : Date.daysBeforeYear (-262143) = -95745764 := by decide
  have hbehind : Date.daysBeforeYear 262143 = 95745765 := by decide
  have hepoch : Date.daysBeforeYear 1970 = 719528 := by decide
  show _ ↔ -262143 ≤ Date.yearOfDays t.day ∧ Date.yearOfDays t.day ≤ 262142
  have hlast : Date.yearOfDays t.day ≤ 262142 ↔ ¬ 262143 ≤ Date.yearOfDays t.day := by omega
  rw [hlast, Date.le_yearOfDays_iff, Date.le_yearOfDays_iff, hfirst, hbehind]
  rw [inCalendar_iff]
  unfold firstSecond lastSecond day daySeconds
  rw [hepoch]
  omega

theorem FourDigitYear.inCalendar {t : Instant} (h : t.FourDigitYear) : t.inCalendar = true := by
  obtain ⟨hlow, hhigh⟩ := h
  exact inCalendar_iff_year.mpr ⟨by omega, by omega⟩

/-! ## Milliseconds -/

/-- Nanoseconds since 1970 began. -/
def sinceEpoch (t : Instant) : Int :=
  t.seconds * 1000000000 + t.nanos

/-- **The instants that milliseconds give** are those in the calendar that
are so far from the beginning of 1970 and lie in no leap second. -/
theorem ofMillis?_eq_some_iff {m : Int} {t : Instant} :
    ofMillis? m = some t ↔
      t.inCalendar = true ∧ t.isLeap = false ∧ t.sinceEpoch = m * 1000000 := by
  obtain ⟨seconds, nanos, hnanos⟩ := t
  unfold ofMillis? isLeap sinceEpoch
  simp only [inCalendar_iff, Option.ite_none_right_eq_some, Option.some.injEq, mk.injEq,
    decide_eq_false_iff_not, Nat.not_le]
  constructor
  · rintro ⟨hin, rfl, rfl⟩
    exact ⟨hin, by omega, by omega⟩
  · rintro ⟨hin, hleap, hsince⟩
    have hseconds : m / 1000 = seconds := by omega
    have hrest : (m % 1000).toNat * 1000000 = nanos := by omega
    exact ⟨hseconds ▸ hin, hseconds, hrest⟩

/-- **The milliseconds of the calendar.** -/
theorem isSome_ofMillis?_iff {m : Int} :
    (ofMillis? m).isSome ↔ firstSecond * 1000 ≤ m ∧ m ≤ lastSecond * 1000 + 999 := by
  unfold ofMillis?
  simp only [inCalendar_iff, Option.isSome_ite]
  unfold firstSecond lastSecond
  omega

/-! ## Rounding down -/

@[simp] theorem isLeap_truncate (t : Instant) : t.truncate.isLeap = t.isLeap := by
  have hiff : 1000000000 ≤ t.nanos / 1000000 * 1000000 ↔ 1000000000 ≤ t.nanos := by omega
  exact decide_eq_decide.mpr hiff

theorem sinceEpoch_truncate (t : Instant) :
    t.truncate.sinceEpoch = t.sinceEpoch / 1000000 * 1000000 := by
  show t.seconds * 1000000000 + (t.nanos / 1000000 * 1000000 : Nat) = _
  unfold sinceEpoch
  omega

/-- **What is finer than a millisecond is not written.** -/
@[simp] theorem text_truncate (t : Instant) : t.truncate.text = t.text := by
  have hmillis : t.nanos / 1000000 * 1000000 % 1000000000 / 1000000
      = t.nanos % 1000000000 / 1000000 := by omega
  rw [text_eq, text_eq, writtenSecond, isLeap_truncate]
  show _ ++ 'T' :: (_ ++ ':' :: (_ ++ ':' :: (_ ++ '.' ::
    (paddedDigits 3 (t.nanos / 1000000 * 1000000 % 1000000000 / 1000000) ++ ['Z'])))) = _
  rw [hmillis]
  rfl

/-- An instant of the calendar is given by its milliseconds, up to what is
finer. -/
theorem ofMillis?_sinceEpoch {t : Instant} (hin : t.inCalendar = true) (hleap : t.isLeap = false) :
    ofMillis? (t.sinceEpoch / 1000000) = some t.truncate := by
  exact ofMillis?_eq_some_iff.mpr ⟨hin, by simp [hleap], sinceEpoch_truncate t⟩

end Instant

end Academy
