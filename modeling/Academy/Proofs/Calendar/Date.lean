import Academy.Calendar.Date

/-!
# Days and dates correspond

A date is found from its day by a quotient that may miss the year by one,
and by counting the months that have begun. Neither has to be exact for
what is proved here: that the year is the one into which the day falls,
and that there is such a day in the month, whence counting the days up to
the date gives the day again.

A year is long by a day if it is a leap year, and that is all that the
months have to know of it. So what is said of months is checked in one
year of each kind and is true in all the others.
-/

namespace Academy.Date

/-! ## Years -/

/-- How many days a year has. -/
def yearLength (year : Int) : Int :=
  if isLeapYear year then 366 else 365

theorem isLeapYear_iff (year : Int) :
    isLeapYear year = true ↔ year % 4 = 0 ∧ (year % 100 ≠ 0 ∨ year % 400 = 0) := by
  unfold isLeapYear
  exact decide_eq_true_iff

theorem daysBeforeYear_succ (year : Int) :
    daysBeforeYear (year + 1) = daysBeforeYear year + yearLength year := by
  unfold daysBeforeYear yearLength
  split
  · next h =>
    rw [isLeapYear_iff] at h
    omega
  · next h =>
    rw [isLeapYear_iff] at h
    omega

/-- **A day falls into its year.** -/
theorem yearOfDays_spec (days : Int) :
    daysBeforeYear (yearOfDays days) ≤ days ∧ days < daysBeforeYear (yearOfDays days + 1) := by
  -- years of the mean length lead to the year, to the one before or the one after
  have hlow : daysBeforeYear (days * 400 / 146097 - 1) ≤ days := by
    unfold daysBeforeYear
    omega
  have hhigh : days < daysBeforeYear (days * 400 / 146097 + 2) := by
    unfold daysBeforeYear
    omega
  unfold yearOfDays
  dsimp only
  generalize days * 400 / 146097 = guess at *
  split
  · next h =>
    rw [Int.sub_add_cancel]
    exact ⟨hlow, h⟩
  · next h =>
    split
    · next h' =>
      rw [Int.add_assoc]
      exact ⟨h', hhigh⟩
    · next h' => exact ⟨Int.not_lt.mp h, Int.not_le.mp h'⟩

/-! ## Months -/

/-- A year of each kind. -/
def yearLike (year : Int) : Int :=
  if isLeapYear year then 2000 else 2001

@[simp]
theorem isLeapYear_yearLike (year : Int) : isLeapYear (yearLike year) = isLeapYear year := by
  unfold yearLike
  cases isLeapYear year <;> rfl

@[simp] theorem daysInMonth_yearLike (year : Int) (month : Nat) :
    daysInMonth (yearLike year) month = daysInMonth year month := by
  simp [daysInMonth]

@[simp] theorem daysBeforeMonth_yearLike (year : Int) (month : Nat) :
    daysBeforeMonth (yearLike year) month = daysBeforeMonth year month := by
  simp [daysBeforeMonth]

@[simp] theorem monthOfDay_yearLike (year : Int) (dayOfYear : Nat) :
    monthOfDay (yearLike year) dayOfYear = monthOfDay year dayOfYear := by
  simp [monthOfDay]

/-- A day of the year falls into a month, and there is such a day in it. -/
def FallsInMonth (year : Int) (dayOfYear : Nat) : Prop :=
  (1 ≤ monthOfDay year dayOfYear ∧ monthOfDay year dayOfYear ≤ 12) ∧
    daysBeforeMonth year (monthOfDay year dayOfYear) ≤ dayOfYear ∧
    dayOfYear - daysBeforeMonth year (monthOfDay year dayOfYear) + 1
      ≤ daysInMonth year (monthOfDay year dayOfYear)

instance (year : Int) (dayOfYear : Nat) : Decidable (FallsInMonth year dayOfYear) :=
  inferInstanceAs (Decidable (_ ∧ _))

theorem fallsInMonth {year : Int} {dayOfYear : Nat} (h : (dayOfYear : Int) < yearLength year) :
    FallsInMonth year dayOfYear := by
  have hleap : ∀ d < 366, FallsInMonth 2000 d := by decide +kernel
  have hcommon : ∀ d < 365, FallsInMonth 2001 d := by decide +kernel
  have hlike : FallsInMonth (yearLike year) dayOfYear := by
    unfold yearLength at h
    unfold yearLike
    cases hyear : isLeapYear year with
    | true =>
      rw [hyear, if_pos rfl] at h
      exact hleap dayOfYear (by omega)
    | false =>
      rw [hyear, if_neg Bool.false_ne_true] at h
      exact hcommon dayOfYear (by omega)
  unfold FallsInMonth at hlike ⊢
  simpa using hlike

/-! ## Dates -/

/-- **The date of a day is a date, and its day is that day.** -/
theorem ofDays_spec (days : Int) :
    (ofDays days).isValid = true ∧ (ofDays days).toDays = days := by
  obtain ⟨hlow, hhigh⟩ := yearOfDays_spec days
  rw [daysBeforeYear_succ] at hhigh
  obtain ⟨hmonth, hbegun, hday⟩ : FallsInMonth (yearOfDays days)
      (days - daysBeforeYear (yearOfDays days)).toNat :=
    fallsInMonth (by omega)
  refine ⟨?_, ?_⟩
  · unfold isValid ofDays
    rw [decide_eq_true_iff]
    exact ⟨hmonth.1, hmonth.2, Nat.succ_pos _, hday⟩
  · unfold toDays ofDays
    dsimp only
    omega

end Academy.Date
