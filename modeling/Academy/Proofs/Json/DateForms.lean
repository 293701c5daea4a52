import Academy.Proofs.Calendar.Millis
import Academy.Proofs.Json.Extended

/-!
# The forms of a date agree

Under the tag of instants there may be a date and time, which is what is
written, or a number of milliseconds, as a number or as a numeral in an
object of its own. Which form it is, is known by the kind of the value,
and then the form decides alone (`DateForm.ofText_text`). So forms agree
if they give the same instant.

The two numbers of milliseconds agree for all 64 bits with a sign, beyond
the calendar as within it. A date and time agrees with the milliseconds
that are in it whole: an instant is written without what is finer, and
rounding its distance from the beginning of 1970 down leaves the same
away, on either side of 1970. This is where leap seconds differ, which
are written as such, while no number of milliseconds gives one.
-/

namespace Academy

@[simp] theorem signed?_toInt (n : Int64) : signed? n.toInt = some n.toInt :=
  signed?_eq_some_iff.mpr ⟨n.le_toInt, n.toInt_lt⟩

/-- What is read where nothing is wrong with the text itself. -/
theorem Codec.ofText_text {α : Type} (c : Codec α) {j : Json} (hj : j.Readable) :
    c.ofText j.text = c.decode Reading.nestingLimit j.reading := by
  unfold ofText
  rw [Json.readingOfText_text hj]
  dsimp only
  cases c.decode Reading.nestingLimit j.reading <;> rfl

namespace DateForm

/-! ## Tagged forms -/

/-- The text of a form under the tag of instants. -/
def text (form : DateForm) : List Char :=
  (Json.object [(instantTag, Codec.dateForm.encode form)]).text

/-- **A form that is read as it is written**, where it stands under the
tag. One of the forms is an object, for which there has to be room, so
this cannot be asked at every depth (`Codec.Restores`). -/
structure Restored (form : DateForm) : Prop where
  /-- What is written can be read. -/
  readable : (Codec.dateForm.encode form).Readable
  /-- It is read as the form. -/
  decode : Codec.dateForm.decode (Reading.nestingLimit - 1) (Codec.dateForm.encode form).reading
    = .ok form

/-- **The form decides alone** which instant is read. -/
theorem Restored.ofText_text {form : DateForm} (h : form.Restored) :
    Codec.instant.ofText form.text = form.instant := by
  have hreadable : (Json.object [(instantTag, Codec.dateForm.encode form)]).Readable :=
    ⟨h.readable, trivial⟩
  have hnames : ([Field.required instantTag .dateForm].map (·.name)).Nodup :=
    List.pairwise_singleton _ _
  have hrecord : (Codec.record "DateRepr" [.required instantTag .dateForm] false).decode
      Reading.nestingLimit (Json.object [(instantTag, Codec.dateForm.encode form)]).reading
      = .ok ((form, ()) : DateForm × Unit) := by
    refine (Codec.decode_record hnames ((form, ()) : DateForm × Unit)).trans ?_
    exact Field.rereadRow_eq_ok_iff.mpr ⟨h.decode, trivial⟩
  refine (Codec.ofText_text Codec.instant hreadable).trans ?_
  show Except.bind _ _ = _
  rw [hrecord]
  rfl

example : String.ofList (text (.canonical "-1"))
    = "\x7b\"$date\":\x7b\"$numberLong\":\"-1\"\x7d\x7d" := by decide +kernel

theorem restored_canonical (s : String) : (canonical s).Restored :=
  ⟨⟨trivial, trivial⟩, rfl⟩

/-- A whole number is read as milliseconds, whatever its sign. -/
theorem restored_of_number {n : Int} {number : JsonNumber}
    (hencode : Codec.dateForm.encode (.millis n) = .number number)
    (hread : readNumeral (Json.numberText number) = (.scalar (.ok (.number number)) none, []))
    (hform : ofJson? (.number number) = some (.millis n)) : (millis n).Restored := by
  have hreading : (Json.number number).reading = .scalar (.ok (.number number)) none :=
    congrArg Prod.fst hread
  refine ⟨?_, ?_⟩
  · rw [hencode]
    exact ⟨_, hread⟩
  · rw [hencode, hreading]
    have hvalue : (Reading.scalar (.ok (.number number)) none).toJson (Reading.nestingLimit - 1)
        = .ok (.number number) := rfl
    unfold Codec.dateForm
    dsimp only
    rw [hvalue]
    dsimp only
    rw [hform]

theorem restored_millis {n : Int} (h : signed? n = some n) : (millis n).Restored := by
  obtain ⟨hlow, hhigh⟩ := signed?_eq_some_iff.mp h
  by_cases hneg : n < 0
  · have habs : -(n.natAbs : Int) = n := by omega
    have hsigned : signed? (-(n.natAbs : Int)) = some n := by rw [habs, h]
    refine restored_of_number (congrArg Json.number (if_pos hneg))
      (Json.readNumeral_negative (by omega) (Option.isSome_of_eq_some hsigned)) ?_
    exact congrArg (Option.map millis) hsigned
  · have habs : (n.natAbs : Int) = n := by omega
    have hsigned : signed? (n.natAbs : Int) = some n := by rw [habs, h]
    have hsize : UInt64.size = 2 ^ 64 := rfl
    refine restored_of_number (congrArg Json.number (if_neg hneg))
      (Json.readNumeral_toDigits (by omega)) ?_
    exact congrArg (Option.map millis) hsigned

/-! ## Milliseconds -/

theorem instant_canonical {n : Int} (h : signed? n = some n) :
    (canonical (toString n)).instant = (millis n).instant := by
  unfold instant
  dsimp only
  rw [intOfText?_toString, h]

theorem ofText_millis {n : Int} (h : signed? n = some n) :
    Codec.instant.ofText (millis n).text = ofMillis n :=
  (restored_millis h).ofText_text

/-- **The instant of some milliseconds**, where it is in the calendar. -/
theorem ofMillis_eq_ok_iff {n : Int} {t : Instant} :
    ofMillis n = .ok t ↔
      t.inCalendar = true ∧ t.isLeap = false ∧ t.sinceEpoch = n * 1000000 := by
  rw [← Instant.ofMillis?_eq_some_iff, ofMillis]
  cases Instant.ofMillis? n with
  | none => exact iff_of_false nofun nofun
  | some u => exact ⟨fun h => congrArg _ (Except.ok.inj h), fun h => congrArg _ (Option.some.inj h)⟩

/-- Beyond the calendar there is none. -/
theorem ofMillis_eq_error {n : Int}
    (h : ¬ (Instant.firstSecond * 1000 ≤ n ∧ n ≤ Instant.lastSecond * 1000 + 999)) :
    ofMillis n = .error (.invalidDate (toString n)) := by
  have hnone : Instant.ofMillis? n = none :=
    Option.not_isSome_iff_eq_none.mp fun hsome => h (Instant.isSome_ofMillis?_iff.mp hsome)
  rw [ofMillis, hnone]

end DateForm

/-- **The forms of a date agree.** A number of milliseconds of 64 bits is
read alike as a number and as a numeral, as the instant so far from the
beginning of 1970 where there is one in the calendar, and with the same
error where there is none. What is written for an instant of a year with
four digits is read as the instant without what is finer than a
millisecond, rounded towards the past; where it is in no leap second, this
is what the number of its whole milliseconds is read as; and it is written
as the instant is. -/
theorem Codec.instant_forms_agree (m : Int64) :
    Codec.instant.ofText (DateForm.canonical (toString m.toInt)).text
      = Codec.instant.ofText (DateForm.millis m.toInt).text ∧
    (if Instant.firstSecond * 1000 ≤ m.toInt ∧ m.toInt ≤ Instant.lastSecond * 1000 + 999 then
      ∃ t : Instant, Codec.instant.ofText (DateForm.millis m.toInt).text = .ok t ∧
        t.inCalendar = true ∧ t.isLeap = false ∧ t.sinceEpoch = m.toInt * 1000000
    else Codec.instant.ofText (DateForm.millis m.toInt).text
      = .error (.invalidDate (toString m.toInt))) ∧
    ∀ t : Instant, t.FourDigitYear →
      ∃ u : Instant, Codec.instant.ofText (Codec.instant.text t) = .ok u ∧
        u.isLeap = t.isLeap ∧ u.sinceEpoch = t.sinceEpoch / 1000000 * 1000000 ∧
        (t.isLeap = false →
          Codec.instant.ofText (DateForm.millis (t.sinceEpoch / 1000000)).text = .ok u) ∧
        Codec.instant.text u = Codec.instant.text t := by
  have hm := signed?_toInt m
  refine ⟨?_, ?_, fun t ht => ⟨t.truncate, (restores_instant ht).ofText, t.isLeap_truncate,
    t.sinceEpoch_truncate, fun hleap => ?_, ?_⟩⟩
  · rw [(DateForm.restored_canonical _).ofText_text, (DateForm.restored_millis hm).ofText_text,
      DateForm.instant_canonical hm]
  · rw [DateForm.ofText_millis hm]
    split
    · next hin =>
      obtain ⟨t, ht⟩ := Option.isSome_iff_exists.mp (Instant.isSome_ofMillis?_iff.mpr hin)
      have hplace := Instant.ofMillis?_eq_some_iff.mp ht
      exact ⟨t, DateForm.ofMillis_eq_ok_iff.mpr hplace, hplace⟩
    · next hout => exact DateForm.ofMillis_eq_error hout
  · have hmillis := Instant.ofMillis?_sinceEpoch ht.inCalendar hleap
    have hin := Instant.isSome_ofMillis?_iff.mp (Option.isSome_of_eq_some hmillis)
    unfold Instant.firstSecond Instant.lastSecond at hin
    have hsigned : signed? (t.sinceEpoch / 1000000) = some (t.sinceEpoch / 1000000) :=
      signed?_eq_some_iff.mpr (by omega)
    rw [DateForm.ofText_millis hsigned, DateForm.ofMillis, hmillis]
  · show (Json.object [(instantTag, .string (String.ofList t.truncate.text))]).text = _
    rw [t.text_truncate]
    rfl

/-- The last nanosecond before 1970. -/
def Instant.beforeEpoch : Instant :=
  ⟨-1, 999999999, .inl (by decide)⟩

/-- Rounded down, it is the millisecond before 1970 and not that of its
beginning, as a date and time and as a number. -/
theorem Codec.instant_forms_agree_beforeEpoch :
    Instant.beforeEpoch.FourDigitYear ∧ Instant.beforeEpoch.isLeap = false ∧
      ∃ u : Instant, Codec.instant.ofText (Codec.instant.text Instant.beforeEpoch) = .ok u ∧
        u.sinceEpoch = -1000000 ∧ Codec.instant.ofText (DateForm.millis (-1)).text = .ok u ∧
        Codec.instant.ofText (DateForm.canonical "-1").text = .ok u := by
  have hyear : Instant.beforeEpoch.FourDigitYear := by decide
  have hleap : Instant.beforeEpoch.isLeap = false := by decide
  obtain ⟨hagree, -, hrounded⟩ := instant_forms_agree (-1)
  obtain ⟨u, hread, -, hsince, hmillis, -⟩ := hrounded Instant.beforeEpoch hyear
  exact ⟨hyear, hleap, u, hread, hsince, hmillis hleap, hagree.trans (hmillis hleap)⟩

end Academy
