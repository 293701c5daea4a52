import Academy.Proofs.Generation.FromCatalog
import Academy.Proofs.Generation.Stages
import Academy.Proofs.Integrity.Generated
import Academy.Proofs.Text.Digits

/-!
# What is made lies where it is meant to

The check of a dataset looks at references, and at few of the numbers. What
it passes over is said here: how instructors and courses are rated and how
many students they have, how old students are, what addresses and
transactions look like, how helpful reviews are, and how far back dates
lie. The bounds are written down once more, as numbers, so that they do not
follow the ones that are drawn with.

Nearly all of it can be seen of a single record, for whatever it is made.
Only courses need more: those that the templates reach have narrower bounds
than the ones that follow, so a course is looked at together with its place
and with the categories, and the categories have to be carried through the
collections that are made after them.

Of a date no more is used than what `ago` says, which is given with the
draw of it. In the end it is the present, moved back by whole days.
-/

namespace Academy

open Binary64

variable {Ref Date : Type} {E : DrawError → Prop}

/-! ## Numerals -/

/-- **A numeral without zeros in front**, of a number between two others. -/
structure PlainNumeral (least greatest : Nat) (digits : List Char) : Prop where
  /-- There are digits only. -/
  isDigit : ∀ c ∈ digits, c.isDigit = true
  /-- The first is not zero. -/
  first : digits.head? ≠ some '0'
  /-- The number is not below the lower bound. -/
  least_le : least ≤ digitsValue digits
  /-- The number is not above the upper bound. -/
  le_greatest : digitsValue digits ≤ greatest

theorem PlainNumeral.of_toDigits {least greatest n : Nat} (h0 : 0 < least) (hleast : least ≤ n)
    (hgreatest : n ≤ greatest) : PlainNumeral least greatest (Nat.toDigits 10 n) where
  isDigit _ := isDigit_of_mem_toDigits
  first := by
    intro h
    obtain ⟨s, hs⟩ := List.head?_eq_some_iff.mp h
    exact toDigits_ne_zero_cons (h0.trans_le hleast) s hs
  least_le := by simpa using hleast
  le_greatest := by simpa using hgreatest

/-- How many digits a number has. -/
theorem length_toDigits {n k : Nat} (hlow : 10 ^ k ≤ n) (hhigh : n < 10 ^ (k + 1)) (hk : 0 < k) :
    (Nat.toDigits 10 n).length = k + 1 := by
  have hle := (Nat.length_toDigits_le_iff (b := 10) (by decide) (Nat.succ_pos k)).mpr hhigh
  have hlt := mt (Nat.length_toDigits_le_iff (b := 10) (by decide) hk).mp (Nat.not_lt.mpr hlow)
  omega

/-! ## Ratings -/

/-- **A rating of two places lies between its bounds**, of which the upper one is
five. -/
theorem le_rating {least : Nat} {lowest rating : Binary64} (h : HasPlaces 2 least 500 rating)
    (hlowest : round false (least * one) 100 = lowest) :
    lowest.le rating = true ∧ rating.le 5 = true := by
  obtain ⟨hlow, hhigh⟩ := (h.between placesFactor_two (by decide) (by decide) (by decide)
    (by decide +kernel)).le
  exact ⟨hlowest ▸ hlow, (show round false (500 * one) 100 = 5 by decide +kernel) ▸ hhigh⟩

/-! ## The records -/

/-- **Where an instructor lies.** -/
structure Instructor.InDomain (i : Instructor Ref) : Prop where
  /-- How they are rated. -/
  rating : Binary64.le 4.2 i.rating = true ∧ i.rating.le 5 = true
  /-- How many students they have had. -/
  totalStudents : 500 ≤ i.totalStudents.toNat ∧ i.totalStudents.toNat ≤ 5000
  /-- Their address is that of their name. -/
  email : i.email = emailOf i.name

/-- **Where a student lies.** -/
structure Student.InDomain (ago : Nat → Date → Prop) (s : Student Ref Date) : Prop where
  /-- How old they are. -/
  age : 18 ≤ s.age.toNat ∧ s.age.toNat ≤ 65
  /-- Their name and their address are made of the same two names. -/
  named : ∃ first ∈ Catalog.firstNames, ∃ last ∈ Catalog.lastNames, ∃ digits,
    PlainNumeral 1 999 digits ∧ s.name = first ++ " " ++ last ∧
      s.email = String.ofList (lowercase first.toList) ++ "."
        ++ String.ofList (lowercase last.toList) ++ String.ofList digits ++ "@email.com"
  /-- When they joined. -/
  registeredAt : ago 1095 s.registeredAt

/-- **Where a course lies**, between bounds of its kind. -/
structure Course.Within (ago : Nat → Date → Prop) (lowest : Binary64) (least greatest : Nat)
    (course : Course Ref Date) : Prop where
  /-- How it is rated. -/
  rating : lowest.le course.rating = true ∧ course.rating.le 5 = true
  /-- How many students it has. -/
  enrolledCount : least ≤ course.enrolledCount.toNat ∧ course.enrolledCount.toNat ≤ greatest
  /-- When it was made. -/
  createdAt : ago 730 course.createdAt

/-- **Where a course lies by its place.** -/
structure Course.InDomain (ago : Nat → Date → Prop) (categories : List (Category Ref))
    (place : Nat) (course : Course Ref Date) : Prop where
  /-- A course that is made from a template. -/
  established : ∀ category template, (templates categories)[place]? = some (category, template) →
    course.content = template.content ∧ course.Within ago 3.8 50 2000
  /-- A course that is made later. -/
  additional : (templates categories).length ≤ place → course.Within ago 3.5 20 1500

/-- **Where an enrollment lies.** -/
structure Enrollment.InDomain (ago : Nat → Date → Prop) (e : Enrollment Ref Date) : Prop where
  /-- When it began. -/
  enrolledAt : ago 730 e.enrolledAt
  /-- When the student was there last. -/
  lastAccessed : ∀ date, e.lastAccessed = some date → ago 30 date

/-- **Where a review lies.** -/
structure Review.InDomain (ago : Nat → Date → Prop) (r : Review Ref Date) : Prop where
  /-- How many can find it helpful. -/
  helpfulCount : r.helpfulCount.toNat ≤ 50
  /-- How many can find it helpful if it is not favourable. -/
  helpfulCount_of_lt : r.rating.toNat < 4 → r.helpfulCount.toNat ≤ 10
  /-- When it was written. -/
  createdAt : ago 730 r.createdAt

/-- **Where a payment lies.** -/
structure Payment.InDomain (ago : Nat → Date → Prop) (p : Payment Ref Date) : Prop where
  /-- How it was paid. -/
  method : p.method ∈ ["credit_card", "paypal", "debit_card", "bank_transfer"]
  /-- The number of the transaction. -/
  transaction : ∃ digits, digits.length = 6 ∧ PlainNumeral 100000 999999 digits ∧
    p.transaction = "TXN-" ++ String.ofList digits
  /-- When it was paid. -/
  paidAt : ago 730 p.paidAt

/-- **Where a record lies**, at a place of its collection. -/
def Record.InDomain (ago : Nat → Date → Prop) (categories : List (Category Ref)) (place : Nat) :
    (c : Collection) → Dataset.Record Ref Date c → Prop
  | .categories => fun _ => True
  | .instructors => Instructor.InDomain
  | .students => Student.InDomain ago
  | .courses => Course.InDomain ago categories place
  | .enrollments => Enrollment.InDomain ago
  | .reviews => Review.InDomain ago
  | .payments => Payment.InDomain ago

/-! ## Each record is drawn where it lies -/

theorem Instructor.draw_inDomain (template : InstructorTemplate) (id : Ref) :
    (draw template id).Gives E InDomain := by
  refine (UniformRange.drawRounded_gives ratings_covers).bind fun rating hrating => ?_
  refine (Draw.within_gives (by decide)).bind fun total htotal => Draw.gives_pure ?_
  have hspan : 500 ≤ total ∧ total ≤ 5000 := htotal
  have hsize : (UInt32.ofNat total).toNat = total :=
    UInt32.toNat_ofNat_of_lt' (hspan.2.trans_lt (by decide))
  exact ⟨le_rating hrating (by decide +kernel), by rw [hsize]; exact hspan, rfl⟩

section

variable {timeline : Timeline Date} {ago : Nat → Date → Prop}
  (hago : ∀ most ≤ 1095, (timeline.draw most).Gives E (ago most))

include hago

theorem Student.draw_inDomain (status : StudentStatus) (id : Ref) :
    (draw timeline status id).Gives E (InDomain ago) := by
  refine (Draw.pick_gives _ _).bind fun first hfirst => ?_
  refine (Draw.pick_gives _ _).bind fun last hlast => ?_
  refine (Draw.short_gives (by decide)).bind fun number hnumber => ?_
  refine (Draw.pick_gives _ _).bind fun country _ => ?_
  refine (hago 1095 (Nat.le_refl _)).bind fun registeredAt hregistered => ?_
  refine (Draw.short_gives (by decide)).bind fun age hage => Draw.gives_pure ?_
  have hspan : 18 ≤ age ∧ age ≤ 65 := hage
  have hsize : (UInt8.ofNat age).toNat = age :=
    UInt8.toNat_ofNat_of_lt' (hspan.2.trans_lt (by decide))
  refine ⟨by rw [hsize]; exact hspan, ?_, hregistered⟩
  refine ⟨first, hfirst, last, hlast, Nat.toDigits 10 number,
    .of_toDigits Nat.one_pos hnumber.1 hnumber.2, rfl, ?_⟩
  exact String.append_assoc.trans rfl

omit hago in
theorem Course.templates_covers : CourseRecord.established.ratings.Covers 2 380 500 := by
  decide +kernel

/-- **A course lies between the bounds that it is drawn with.** -/
theorem Course.draw_within {record : CourseRecord} {leastRating least greatest : Nat}
    {lowest : Binary64} (hratings : record.ratings.Covers 2 leastRating 500)
    (hlowest : round false (leastRating * one) 100 = lowest)
    (henrolled : record.enrolled = ⟨least, greatest⟩) (hordered : least ≤ greatest)
    (hgreatest : greatest < UInt32.size) (content : CourseContent)
    (category instructor id : Ref) :
    (draw timeline record content category instructor id).Gives E
      (fun course => course.content = content ∧ course.Within ago lowest least greatest) := by
  refine (hago 730 (by decide)).bind fun createdAt hcreated => ?_
  refine (UniformRange.drawRounded_gives hratings).bind fun rating hrating => ?_
  rw [henrolled]
  refine (Draw.within_gives hordered).bind fun enrolled hspan => ?_
  refine (Draw.pick_gives _ _).bind fun level _ => Draw.gives_pure ⟨rfl, ?_⟩
  have hsize : (UInt32.ofNat enrolled).toNat = enrolled :=
    UInt32.toNat_ofNat_of_lt' (hspan.2.trans_lt hgreatest)
  exact ⟨le_rating hrating hlowest, by rw [hsize]; exact hspan, hcreated⟩

theorem Enrollment.draw_inDomain (status : EnrollmentStatus) (student course id : Ref) :
    (draw timeline status student course id).Gives E (InDomain ago) := by
  have hspan : status.progress.low ≤ status.progress.high := by cases status <;> decide
  refine (hago 730 (by decide)).bind fun enrolledAt henrolled => ?_
  refine (Draw.short_gives hspan).bind fun progress _ => ?_
  have hgrade : (if status.hasFinalGrade then some <$> grades.drawRounded 1
      else pure none : Draw (Option Binary64)).Gives E (fun _ => True) := by
    split
    · exact (UniformRange.drawRounded_gives grades_covers).map fun _ _ => trivial
    · exact Draw.gives_pure trivial
  have haccess : (if status.tracksLastAccess then some <$> timeline.draw accessDays
      else pure none : Draw (Option Date)).Gives E (fun o => ∀ date, o = some date → ago 30 date) := by
    split
    · refine (hago 30 (by decide)).map fun access haccess => ?_
      rintro _ ⟨⟩
      exact haccess
    · exact Draw.gives_pure nofun
  refine hgrade.ite_bind fun grade _ => haccess.ite_bind fun access haccess => ?_
  exact Draw.gives_pure ⟨henrolled, haccess⟩

theorem Review.draw_inDomain (rating : UInt8) (course student id : Ref) :
    (draw timeline rating course student id).Gives E (InDomain ago) := by
  refine (Draw.choose_gives _).bind fun comment _ => ?_
  refine (hago 730 (by decide)).bind fun createdAt hcreated => ?_
  refine (Draw.within_gives (helpful_le rating).1).bind fun count hcount => Draw.gives_pure ?_
  have hsize : (UInt32.ofNat count).toNat = count :=
    UInt32.toNat_ofNat_of_lt' (hcount.2.trans_lt (helpful_le rating).2)
  have hhigh : count ≤ (helpful rating).high := hcount.2
  refine ⟨?_, fun hlow => ?_, hcreated⟩
  · show (UInt32.ofNat count).toNat ≤ 50
    rw [hsize]
    refine hhigh.trans ?_
    unfold helpful
    split <;> decide
  · show (UInt32.ofNat count).toNat ≤ 10
    have hless : ¬ 4 ≤ rating := Nat.not_le.mpr hlow
    rw [hsize]
    rwa [helpful, if_neg hless] at hhigh

theorem Payment.draw_inDomain (price : Binary64) (status : PaymentStatus)
    (student course id : Ref) :
    (draw timeline price status student course id).Gives E (InDomain ago) := by
  refine (drawAmount_gives price).bind fun amount _ => ?_
  refine (hago 730 (by decide)).bind fun paidAt hpaid => ?_
  refine (Draw.pick_gives _ _).bind fun method hmethod => ?_
  refine (Draw.within_gives (by decide)).bind fun number hnumber => Draw.gives_pure ?_
  have hspan : 100000 ≤ number ∧ number ≤ 999999 := hnumber
  refine ⟨hmethod, ⟨Nat.toDigits 10 number, ?_, ?_, rfl⟩, hpaid⟩
  · exact length_toDigits (k := 5) hspan.1 (by omega) (by decide)
  · exact .of_toDigits (by decide) hspan.1 hspan.2

end

/-! ## The collections -/

/-- A draw that becomes a record, as it is told of tries that can be skipped. -/
theorem Draw.Gives.made_each {α : Type} {draw : Draw α} {P : α → Prop} (h : draw.Gives E P) :
    (Attempt.made <$> draw).Gives E (fun outcome => ∀ a, outcome = .made a → P a) := by
  refine h.map fun a ha => ?_
  rintro _ ⟨⟩
  exact ha

/-- What holds of each record that a try makes holds of those that are gathered. -/
theorem Draw.gather_gives_placed {α : Type} {attempt : Nat → Draw (Attempt α)} {P : α → Prop}
    (h : ∀ n, (attempt n).Gives E (fun outcome => ∀ a, outcome = .made a → P a))
    {tries first : Nat} : (gather attempt tries first).Gives E (PlacedFrom 0 fun _ => P) :=
  (gather_gives_some h tries first).imp fun _ has _ a hn => has.2 a (List.mem_of_getElem? hn)

/-- Records that are drawn for a student and a course, where there are both. -/
theorem gatherPairs_gives_some {α : Type} {P : α → Prop} {students : List (Student Ref Date)}
    {courses : List (Course Ref Date)} {count : Nat}
    {next : Student Ref Date → Course Ref Date → Nat → Draw (Attempt α)}
    (hnext : ∀ student course n,
      (next student course n).Gives E (fun outcome => ∀ a, outcome = .made a → P a)) :
    (Draw.gather (fun place => do
      match ← drawPair students courses with
      | none => pure .ended
      | some (student, course) => next student course place) count 0).Gives E
        (PlacedFrom 0 fun _ => P) := by
  refine Draw.gather_gives_placed fun n => ?_
  refine Draw.Gives.bind (drawPair_failsOnly students courses) fun o _ => ?_
  rcases o with _ | ⟨student, course⟩
  · exact Draw.gives_pure nofun
  · exact hnext student course n

theorem Instructor.gather_inDomain {ids : Nat → Ref} {count : Nat} :
    (gather ids count).Gives E (PlacedFrom 0 fun _ => InDomain) := by
  refine Draw.gather_gives_placed fun n => ?_
  split
  · next template _ => exact (draw_inDomain template (ids n)).made_each
  · exact Draw.gives_pure nofun

section

variable {timeline : Timeline Date} {ago : Nat → Date → Prop}
  (hago : ∀ most ≤ 1095, (timeline.draw most).Gives E (ago most))

include hago

variable {categories : List (Category Ref)} {instructors : List (Instructor Ref)}
  {students : List (Student Ref Date)} {courses : List (Course Ref Date)} {ids : Nat → Ref}
  {count : Nat}

/-- **The courses** lie where their places say. -/
theorem Course.gather_inDomain :
    (gather timeline ids categories instructors count).Gives E
      (PlacedFrom 0 (InDomain ago categories)) := by
  by_cases hnone : categories = [] ∨ instructors = []
  · refine (gather_gives_nil hnone).imp fun _ h => ?_
    subst h
    exact .nil
  obtain ⟨hcategories, hinstructors⟩ := not_or.mp hnone
  refine (gather_gives_placed (fun n category template _ htemplate => ?_)
    fun n _ hend => ?_).imp fun _ h => h.2
  · refine (drawInstructor_gives hinstructors _).bind fun o ho => ?_
    obtain ⟨instructor, -, rfl, -⟩ := ho
    refine ((draw_within hago templates_covers
      (show round false (380 * one) 100 = 3.8 by decide +kernel) rfl (by decide) (by decide)
      _ _ _ _).imp fun course hcourse => ?_).made
    refine ⟨fun category' template' htemplate' => ?_, fun hend => ?_⟩
    · obtain ⟨rfl, rfl⟩ := Prod.mk.inj (Option.some.inj (htemplate.symm.trans htemplate'))
      exact hcourse
    · exact absurd (List.getElem?_eq_some_iff.mp htemplate).1 (Nat.not_lt.mpr hend)
  · refine (Draw.choose_gives _).bind fun o hcategory => ?_
    rcases o with _ | category
    · exact absurd hcategory hcategories
    refine (drawInstructor_gives hinstructors _).bind fun o ho => ?_
    obtain ⟨instructor, -, rfl, -⟩ := ho
    have hmade (content : CourseContent) (_ : True) :
        (Attempt.made <$> draw timeline .additional content category.id instructor.id
          (ids n)).Gives E (fun outcome => ∃ course, outcome = .made course ∧
            InDomain ago categories n course) := by
      refine ((draw_within hago additional_covers
        (show round false (350 * one) 100 = 3.5 by decide +kernel) rfl (by decide) (by decide)
        _ _ _ _).imp fun course hcourse => ?_).made
      refine ⟨fun category template htemplate => ?_, fun _ => hcourse.2⟩
      exact absurd (List.getElem?_eq_some_iff.mp htemplate).1 (Nat.not_lt.mpr hend)
    refine (Draw.choose_gives _).bind fun o _ => ?_
    rcases o with _ | template
    · exact ((CourseContent.filler_gives _).imp fun _ _ => trivial).bind hmade
    · exact (Draw.gives_pure trivial).bind hmade

theorem Enrollment.gather_inDomain :
    (gather timeline ids students courses count).Gives E
      (PlacedFrom 0 fun _ => InDomain ago) := by
  refine gatherPairs_gives_some fun student course n => ?_
  exact EnrollmentStatus.choice.draw_gives.bind fun status _ =>
    (draw_inDomain hago status student.id course.id (ids n)).made_each

theorem Review.gather_inDomain :
    (gather timeline ids students courses count).Gives E
      (PlacedFrom 0 fun _ => InDomain ago) := by
  refine gatherPairs_gives_some fun student course n => ?_
  exact ratingChoice.draw_gives.bind fun rating _ =>
    (draw_inDomain hago rating course.id student.id (ids n)).made_each

theorem Payment.gather_inDomain :
    (gather timeline ids students courses count).Gives E
      (PlacedFrom 0 fun _ => InDomain ago) := by
  refine gatherPairs_gives_some fun student course n => ?_
  refine Draw.Gives.bind (drawSkip_failsOnly course.price) fun skip _ => ?_
  cases skip with
  | true => exact Draw.gives_pure nofun
  | false =>
    exact PaymentStatus.choice.draw_gives.bind fun status _ =>
      (draw_inDomain hago course.price status student.id course.id (ids n)).made_each

theorem Student.gather_inDomain :
    (gather timeline ids count).Gives E (PlacedFrom 0 fun _ => InDomain ago) := by
  refine Draw.gather_gives_placed fun n => ?_
  exact StudentStatus.choice.draw_gives.bind fun status _ =>
    (draw_inDomain hago status (ids n)).made_each

/-- **The records of a collection lie where they are meant to**, whatever there is
to make them of. -/
theorem Dataset.drawRecords_inDomain {room : Nat} {counts : Counts} (d : Dataset Ref Date)
    (c : Collection) (hroom : ∀ c, room < counts.get c → E .memory) (hc : c ≠ .categories) :
    (drawRecords room counts timeline ids d c).Gives E
      (PlacedFrom 0 fun n => Record.InDomain ago d.categories n c) := by
  have hreserve (c : Collection) : (Draw.reserve room (counts.get c)).Gives E (fun _ => True) :=
    Draw.reserve_gives (hroom c)
  cases c with
  | categories => exact absurd rfl hc
  | instructors => exact Instructor.gather_inDomain
  | students => exact (hreserve .students).bind fun _ _ => Student.gather_inDomain hago
  | courses => exact (hreserve .courses).bind fun _ _ => Course.gather_inDomain hago
  | enrollments => exact (hreserve .enrollments).bind fun _ _ => Enrollment.gather_inDomain hago
  | reviews => exact (hreserve .reviews).bind fun _ _ => Review.gather_inDomain hago
  | payments => exact (hreserve .payments).bind fun _ _ => Payment.gather_inDomain hago

namespace Dataset

/-- **The collections that follow the categories**: those that are made lie where
they are meant to, and the others stay as they are. -/
theorem drawOnto_inDomain {room : Nat} {counts : Counts}
    (hroom : ∀ c, room < counts.get c → E .memory) {cs : List Collection} (hcs : cs.Nodup)
    (hcategories : Collection.categories ∉ cs) (place : Nat) (d : Dataset Ref Date) :
    (drawOnto room counts timeline ids cs place d).Gives E (fun d' =>
      (∀ c ∈ cs, PlacedFrom 0 (fun n => Record.InDomain ago d.categories n c) (d'.records c)) ∧
        ∀ c ∉ cs, d'.records c = d.records c) := by
  induction cs generalizing place d with
  | nil => exact Draw.gives_pure ⟨nofun, fun _ _ => rfl⟩
  | cons c cs ih =>
    obtain ⟨hc, hcs⟩ := List.nodup_cons.mp hcs
    obtain ⟨hne, hcategories⟩ := not_or.mp (mt List.mem_cons.mpr hcategories)
    refine (drawRecords_inDomain hago d c hroom (Ne.symm hne)).bind fun rs hrs => ?_
    -- the categories are not those that have been made in this step
    have hsame : (d.withRecords c rs).categories = d.categories :=
      records_withRecords_of_ne hne
    refine (ih hcs hcategories _ _).imp fun d' h => ⟨?_, fun c' hc' => ?_⟩
    · rw [hsame] at h
      refine List.forall_mem_cons.mpr ⟨?_, h.1⟩
      rw [h.2 c hc, records_withRecords_self]
      exact hrs
    · obtain ⟨hne', hc'⟩ := not_or.mp (mt List.mem_cons.mpr hc')
      exact (h.2 c' hc').trans (records_withRecords_of_ne hne')

/-- **What is made lies where it is meant to.** -/
theorem draw_gives_inDomain {room : Nat} {counts : Counts}
    (hroom : ∀ c, room < counts.get c → E .memory) :
    (draw room counts timeline ids).Gives E (fun d =>
      ∀ c, PlacedFrom 0 (fun n => Record.InDomain ago d.categories n c) (d.records c)) := by
  rw [draw_eq_drawOnto]
  refine (Draw.gives_pure (P := fun categories : List (Category Ref) => True) trivial).bind
    fun categories _ => ?_
  refine (drawOnto_inDomain hago hroom (by decide) (by decide) _ _).imp fun d h c => ?_
  have hsame : d.categories = categories := h.2 .categories (by decide)
  rw [hsame]
  by_cases hc : c = .categories
  · subst hc
    exact fun _ _ _ => trivial
  · exact h.1 c (by cases c <;> first | exact absurd rfl hc | decide)

end Dataset

end

/-! ## The present -/

/-- **So many days ago at most**, at the same time of day. -/
def Instant.Ago (now : Instant) (most : Nat) (t : Instant) : Prop :=
  ∃ days ≤ most, t.seconds = now.seconds - days * 86400 ∧ t.nanos = now.nanos

/-- Going back by days leaves the time of day, unless that is a leap second. -/
theorem Instant.ago_daysBefore {now : Instant} (hleap : now.isLeap = false) {most days : Nat}
    (hdays : days ≤ most) : now.Ago most (now.daysBefore days) := by
  refine ⟨days, hdays, ?_⟩
  have hnanos : now.nanos < 1000000000 := by
    unfold isLeap at hleap
    exact Nat.not_le.mp (of_decide_eq_false hleap)
  unfold daysBefore
  split
  · next h0 =>
    subst h0
    exact ⟨by omega, rfl⟩
  · rw [hleap]
    exact ⟨rfl, Nat.mod_eq_of_lt hnanos⟩

/-- **A date is drawn some whole days before the present**, and is not missed. -/
theorem Instant.draw_ago {now : Instant} (hleap : now.isLeap = false)
    (hnow : (now.daysBefore 1095).inCalendar = true) {most : Nat} (hmost : most ≤ 1095) :
    (now.timeline.draw most).Gives E (now.Ago most) := by
  have hreach : 1095 ≤ now.timeline.reach := le_reach hnow
  refine (now.timeline.draw_gives fun h => absurd h (by omega)).imp ?_
  rintro _ ⟨days, hdays, -, rfl⟩
  exact ago_daysBefore hleap hdays

/-- **All that is made lies where it is meant to.** Take any numbers of records,
anything that they are known by, any state of the words, and a present that is
no leap second and has 1095 days before it. In the dataset that is made, each
record of each collection lies in its domain, and its dates are the present
moved back by whole days, as many as the kind of date allows. Only where there
is no room for some collection is there no dataset. -/
theorem Dataset.draw_withinDomains (counts : Counts) (ids : Nat → Ref) (now : Instant)
    (hleap : now.isLeap = false) (hnow : (now.daysBefore 1095).inCalendar = true) (room : Nat)
    (stream : WordStream) :
    (∃ d, ((draw room counts now.timeline ids).readFrom stream).1 = .ok d ∧
      ∀ c n r, (d.records c)[n]? = some r → Record.InDomain now.Ago d.categories n c r) ∨
    (((draw room counts now.timeline ids).readFrom stream).1 = .error .memory ∧
      ∃ c, room < counts.get c) := by
  have hgives : (draw room counts now.timeline ids).Gives
      (fun e => e = .memory ∧ ∃ c, room < counts.get c) _ :=
    draw_gives_inDomain (fun _ hmost => Instant.draw_ago hleap hnow hmost) fun c h => ⟨rfl, c, h⟩
  rcases hgives.outcome stream with ⟨d, hd, hplaced⟩ | ⟨e, he, rfl, hroom⟩
  · refine .inl ⟨d, hd, fun c n r hr => ?_⟩
    have hrecord := hplaced c n r hr
    rwa [Nat.zero_add] at hrecord
  · exact .inr ⟨he, hroom⟩

/-- The standard numbers of records, known by their places. -/
theorem Dataset.draw_withinDomains_standard :
    (Instant.ofSeconds 1700000000).isLeap = false ∧
      ((Instant.ofSeconds 1700000000).daysBefore 1095).inCalendar = true ∧
      ∃ d, ((draw memoryLimit Counts.standard (Instant.ofSeconds 1700000000).timeline
          id).readFrom (.ofSeed 42)).1 = .ok d ∧
        ∀ c n r, (d.records c)[n]? = some r →
          Record.InDomain (Instant.ofSeconds 1700000000).Ago d.categories n c r := by
  have hleap : (Instant.ofSeconds 1700000000).isLeap = false := rfl
  have hnow : ((Instant.ofSeconds 1700000000).daysBefore 1095).inCalendar = true := by decide
  refine ⟨hleap, hnow, ?_⟩
  rcases Dataset.draw_withinDomains Counts.standard id (Instant.ofSeconds 1700000000) hleap hnow
      memoryLimit (.ofSeed 42) with hmade | ⟨-, c, hroom⟩
  · exact hmade
  · exact absurd hroom (by cases c <;> decide)

end Academy
