import Academy.Proofs.Binary64.Whole
import Academy.Proofs.Settings.Layers
import Academy.Proofs.Text.Digits
import Academy.Proofs.Text.Lowercase

/-!
# What variables say

A variable for the seed or for the directory changes that setting and no
other. What it changes it to is another matter: the text of a variable is
taken for a truth value, for a whole number of 64 bits or for a binary64
number as soon as it reads as one, and only then looked at by the setting.

For a seed the way goes through binary64 numbers where it does not fit 64
bits with a sign, so it is rounded to 53 binary digits: only a seed that
ends with eleven binary zeros comes back, and the greatest of all, which is
rounded up beyond the bound and cut off again. For a directory the text
comes back unless it is a numeral or a word that is spelled in another way
than its value; a slash anywhere excludes that.
-/

namespace Academy

open SettingValue

namespace Environment

/-- **Nothing is said about a setting** by any variable. -/
def LeavesAlone (env : Environment) (setting : String) : Prop :=
  ∀ entry ∈ env.settings, ¬ LeadsThrough entry.1 setting

instance (env : Environment) (setting : String) : Decidable (env.LeavesAlone setting) :=
  inferInstanceAs (Decidable (∀ entry ∈ _, _))

/-- Values of variables are no tables. -/
theorem valueOf_ne_table (text : String) (members : List (String × SettingValue)) :
    valueOf text ≠ .table members := by
  unfold valueOf
  dsimp only
  split
  · exact nofun
  · split
    · exact nofun
    · split
      · exact nofun
      · split <;> exact nofun

end Environment

namespace Settings

variable {file : List (String × SettingValue)} {before after : Environment} {told : Settings}
  {setting text : String}

/-- One more variable gives one more name its value. -/
theorem exists_root_insert (variableName text : String)
    (h : merged? file (before ++ after) = some told)
    (hvariable : Environment.settingName? variableName = some setting)
    (hsetting : stepsOf setting = [.member setting]) (hafter : after.LeavesAlone setting) :
    ∃ root root', ofValue? root = some told ∧
      merged? file (before ++ (variableName, text) :: after) = ofValue? root' ∧
      root'.members.lookup setting = some (Environment.valueOf text) ∧
      ∀ other, other ≠ setting → root'.members.lookup other = root.members.lookup other := by
  obtain ⟨root, hroot, hvalue⟩ := Option.bind_eq_some_iff.mp h
  obtain ⟨base, hbase, hroot⟩ := Option.bind_eq_some_iff.mp hroot
  have hsettings : Environment.settings (before ++ after) = before.settings ++ after.settings :=
    List.filterMap_append
  have hinserted : Environment.settings (before ++ (variableName, text) :: after)
      = before.settings ++ (setting, Environment.valueOf text) :: after.settings := by
    refine List.filterMap_append.trans (congrArg (before.settings ++ ·) ?_)
    exact List.filterMap_cons_some (congrArg (Option.map (·, Environment.valueOf text)) hvariable)
  rw [hsettings] at hroot
  obtain ⟨root', hroot', hself, hother⟩ :=
    exists_setAll?_insert hroot hsetting (Environment.valueOf_ne_table text) hafter
  refine ⟨root, root', hvalue, ?_, hself, hother⟩
  unfold merged?
  rw [hbase, Option.bind_some, hinserted, hroot', Option.bind_some]

/-- **A variable for the seed** gives the seed that its text is read as. -/
theorem merged?_seed (h : merged? file (before ++ after) = some told)
    (hafter : after.LeavesAlone "seed") {seed : Option UInt64}
    (hvalue : seedOf? (Environment.valueOf text) = some seed) :
    merged? file (before ++ ("EDU_SEED__SEED", text) :: after) = some { told with seed } := by
  obtain ⟨root, root', hroot, hmerged, hself, hother⟩ :=
    exists_root_insert "EDU_SEED__SEED" text h (by decide +kernel) (by decide +kernel) hafter
  obtain ⟨hdir, -, hcounts⟩ := ofValue?_eq_some_iff.mp hroot
  rw [hmerged, ofValue?_eq_some_iff, hself, hother _ (by decide), hother _ (by decide)]
  exact ⟨hdir, hvalue, hcounts⟩

/-- **A variable for the directory** gives the path that its text is read as. -/
theorem merged?_outputDir (h : merged? file (before ++ after) = some told)
    (hafter : after.LeavesAlone "output_dir") {outputDir : Path}
    (hvalue : (Environment.valueOf text).toText? = some outputDir) :
    merged? file (before ++ ("EDU_SEED__OUTPUT_DIR", text) :: after)
      = some { told with outputDir } := by
  obtain ⟨root, root', hroot, hmerged, hself, hother⟩ :=
    exists_root_insert "EDU_SEED__OUTPUT_DIR" text h (by decide +kernel) (by decide +kernel) hafter
  obtain ⟨-, hseed, hcounts⟩ := ofValue?_eq_some_iff.mp hroot
  rw [hmerged, ofValue?_eq_some_iff, hself, hother _ (by decide), hother _ (by decide)]
  exact ⟨hvalue, hseed, hcounts⟩

end Settings

/-! ## Numerals -/

theorem toLower_of_isDigit {c : Char} (h : c.isDigit = true) : c.toLower = c := by
  have hnine : c.toNat ≤ '9'.toNat := (Char.isDigit_iff_toNat.mp h).2
  unfold Char.toLower
  refine dif_neg fun hupper => ?_
  have hcapital : 'A'.toNat ≤ c.toNat := hupper.1
  exact absurd (hcapital.trans hnine) (by decide)

theorem map_toLower_digits {s : List Char} (h : ∀ c ∈ s, c.isDigit = true) :
    s.map Char.toLower = s :=
  (List.map_congr_left fun c hc => toLower_of_isDigit (h c hc)).trans (List.map_id s)

theorem lowercase_digits {s : List Char} (h : ∀ c ∈ s, c.isDigit = true) : lowercase s = s := by
  refine (lowercase_of_ascii fun c hc => ?_).trans (map_toLower_digits h)
  exact (Char.isDigit_iff_toNat.mp (h c hc)).2.trans_lt (by decide)

theorem toDigits_ne_cons {n : Nat} {c : Char} {s : List Char} (hc : c.isDigit = false) :
    Nat.toDigits 10 n ≠ c :: s := by
  intro h
  have hdigit : c.isDigit = true := isDigit_of_mem_toDigits (h ▸ List.mem_cons_self)
  rw [hc] at hdigit
  exact nomatch hdigit

theorem Binary64.ofText?_toDigits {n : Nat} (h : 0 < n) :
    ofText? (Nat.toDigits 10 n) = some (ofNat n) := by
  have hdigits : ∀ c ∈ Nat.toDigits 10 n, c.isDigit = true := fun c => isDigit_of_mem_toDigits
  have hvalue : ofDecimal false n 0 = ofNat n := by
    unfold ofDecimal
    rw [if_neg h.ne', if_neg (by decide), if_neg (by omega), if_pos (by decide)]
    rw [show Nat.pow 10 (0 : Int).toNat = 1 from rfl, Nat.mul_one]
    rfl
  unfold ofText?
  dsimp only
  rw [splitSign_digits hdigits, map_toLower_digits hdigits,
    if_neg (by rintro (h | h) <;> exact toDigits_ne_cons rfl h), if_neg (toDigits_ne_cons rfl),
    splitDigits_of_digits hdigits]
  dsimp only
  rw [if_neg fun h => Nat.toDigits_ne_nil h.1, List.append_nil, digitsValue_toDigits]
  exact congrArg some hvalue

namespace Environment

/-! ## Seeds -/

/-- A numeral is read as a whole number if it fits 64 bits with a sign, and else
as a binary64 number. -/
theorem valueOf_numeral (n : Nat) :
    valueOf (toString n) = if n < 2 ^ 63 then .integer n else .real (.ofNat n) := by
  have hdigits : ∀ c ∈ Nat.toDigits 10 n, c.isDigit = true := fun c => isDigit_of_mem_toDigits
  have htext : (toString n).toList = Nat.toDigits 10 n := String.toList_ofList
  have hword : ∀ {c : Char} {s : List Char}, c.isDigit = false →
      String.ofList (Nat.toDigits 10 n) ≠ String.ofList (c :: s) := fun hc h =>
    toDigits_ne_cons hc (String.ofList_injective h)
  unfold valueOf
  dsimp only
  rw [htext, lowercase_digits hdigits, if_neg (hword rfl), if_neg (hword rfl),
    intOfText?_toDigits]
  unfold signed?
  have hmax : Int64.maxValue.toInt = 2 ^ 63 - 1 := rfl
  have hmin : Int64.minValue.toInt = -2 ^ 63 := rfl
  by_cases h : n < 2 ^ 63
  · rw [if_pos h, if_pos (by rw [hmax, hmin]; omega)]
  · rw [if_neg h, if_neg (by rw [hmax]; omega), Binary64.ofText?_toDigits (by omega)]

/-- **The seed that is read** where a variable has the numeral of a seed. -/
def seedBack (n : UInt64) : UInt64 :=
  if n.toNat < 2 ^ 63 then n
  else .ofNat (min (Binary64.halfEven n.toNat 2048 * 2048) (UInt64.size - 1))

theorem seedOf?_valueOf (n : UInt64) :
    Settings.seedOf? (valueOf (toString n.toNat)) = some (some (seedBack n)) := by
  rw [valueOf_numeral]
  unfold seedBack
  by_cases h : n.toNat < 2 ^ 63
  · rw [if_pos h, if_pos h]
    simp only [Settings.seedOf?, toNat?, Int.natCast_nonneg, if_true, Int.toNat_natCast,
      Option.map_some, UInt64.ofNat_toNat]
  · rw [if_neg h, if_neg h]
    show some (some (UInt64.ofNat ((Binary64.ofNat n.toNat).toWhole.floorWithin _))) = _
    rw [Binary64.toWhole_ofNat (p := 11) (by decide) (by omega) (by have := n.toNat_lt; omega)]
    rfl

/-- **Which seeds come back**: the lower half of them, of the upper half one in
2048, and the greatest of all. -/
theorem seedBack_eq_iff (n : UInt64) :
    seedBack n = n ↔ n.toNat < 2 ^ 63 ∨ 2048 ∣ n.toNat ∨ n.toNat = UInt64.size - 1 := by
  have hlt : n.toNat < UInt64.size := n.toNat_lt
  have hsize : UInt64.size = 2 ^ 64 := rfl
  unfold seedBack
  by_cases h : n.toNat < 2 ^ 63
  · rw [if_pos h]
    exact iff_of_true rfl (.inl h)
  · rw [if_neg h, ← UInt64.toNat_inj, UInt64.toNat_ofNat_of_lt' (by omega), or_iff_right h]
    obtain ⟨hlow, hhigh, -⟩ := Binary64.halfEven_spec n.toNat (d := 2048) (by decide)
    constructor
    · intro heq
      omega
    · rintro (⟨k, hk⟩ | hgreatest)
      · rw [hk, Nat.mul_comm 2048 k, Binary64.halfEven_mul_self k (by decide)]
        omega
      · omega

/-! ## Texts -/

/-- A text that is one of the words for truth values, in whatever letters. -/
def IsWord (text : String) (b : Bool) : Prop :=
  String.ofList (lowercase text.toList) = toString b

theorem IsWord.unique {text : String} {b c : Bool} (hb : IsWord text b) (hc : IsWord text c) :
    b = c := by
  have heq : toString b = toString c := hb.symm.trans hc
  revert heq
  cases b <;> cases c <;> decide

/-- **What a text is taken for**, in the order in which that is tried. -/
theorem valueOf_cases (text : String) :
    (∃ b, IsWord text b ∧ valueOf text = .bool b) ∨
    ((∀ b, ¬ IsWord text b) ∧
      ((∃ n, intOfText? text.toList = some n ∧ valueOf text = .integer n) ∨
      (intOfText? text.toList = none ∧
        ((∃ x, Binary64.ofText? text.toList = some x ∧ valueOf text = .real x) ∨
        (Binary64.ofText? text.toList = none ∧ valueOf text = .text text))))) := by
  unfold valueOf
  dsimp only
  by_cases htrue : String.ofList (lowercase text.toList) = "true"
  · exact .inl ⟨true, htrue, if_pos htrue⟩
  · by_cases hfalse : String.ofList (lowercase text.toList) = "false"
    · exact .inl ⟨false, hfalse, by rw [if_neg htrue, if_pos hfalse]⟩
    · refine .inr ⟨fun b => ?_, ?_⟩
      · cases b
        · exact hfalse
        · exact htrue
      · rw [if_neg htrue, if_neg hfalse]
        cases intOfText? text.toList with
        | some n => exact .inl ⟨n, rfl, rfl⟩
        | none =>
          cases Binary64.ofText? text.toList with
          | some x => exact .inr ⟨rfl, .inl ⟨x, rfl, rfl⟩⟩
          | none => exact .inr ⟨rfl, .inr ⟨rfl, rfl⟩⟩

/-- **A text that is taken for a value** that is written differently. -/
inductive Respelled (text : String) : Prop
  /-- A truth value, but not in small letters. -/
  | word (b : Bool) (reads : IsWord text b) (differs : text ≠ toString b)
  /-- A whole number, but with a plus or with zeros in front. -/
  | whole (n : Int) (no_word : ∀ b, ¬ IsWord text b) (reads : intOfText? text.toList = some n)
    (differs : text ≠ toString n)
  /-- Another number, but not by the fewest digits that it has without an
  exponent. -/
  | real (x : Binary64) (no_word : ∀ b, ¬ IsWord text b) (no_whole : intOfText? text.toList = none)
    (reads : Binary64.ofText? text.toList = some x)
    (differs : text ≠ String.ofList (DecimalStyle.withoutExponent.text x))

/-- **The text that is read** where a variable has a text. -/
def textBack (text : String) : String :=
  (valueOf text).toText?.getD text

@[simp]
theorem toText?_valueOf (text : String) : (valueOf text).toText? = some (textBack text) := by
  unfold textBack
  rcases valueOf_cases text with ⟨b, -, h⟩ | ⟨-, ⟨n, -, h⟩ | ⟨-, ⟨x, -, h⟩ | ⟨-, h⟩⟩⟩ <;>
    rw [h] <;> rfl

/-- **Which texts do not come back**: those that are taken for something that is
written differently. -/
theorem textBack_ne_iff (text : String) : textBack text ≠ text ↔ Respelled text := by
  unfold textBack
  rcases valueOf_cases text with
    ⟨b, hword, h⟩ | ⟨hno, ⟨n, hwhole, h⟩ | ⟨hwhole, ⟨x, hreal, h⟩ | ⟨hreal, h⟩⟩⟩ <;> rw [h]
  · have hspelled : ((SettingValue.bool b).toText?).getD text = toString b := by cases b <;> rfl
    rw [hspelled]
    refine ⟨fun hne => .word b hword hne.symm, fun hre => ?_⟩
    cases hre with
    | word c reads differs => exact reads.unique hword ▸ differs.symm
    | whole n no_word _ _ => exact absurd hword (no_word b)
    | real x no_word _ _ _ => exact absurd hword (no_word b)
  · show toString n ≠ text ↔ _
    refine ⟨fun hne => .whole n hno hwhole hne.symm, fun hre => ?_⟩
    cases hre with
    | word b reads _ => exact absurd reads (hno b)
    | whole k _ reads differs =>
      obtain rfl : n = k := Option.some.inj (hwhole.symm.trans reads)
      exact differs.symm
    | real x _ no_whole _ _ => exact nomatch hwhole.symm.trans no_whole
  · show String.ofList (DecimalStyle.withoutExponent.text x) ≠ text ↔ _
    refine ⟨fun hne => .real x hno hwhole hreal hne.symm, fun hre => ?_⟩
    cases hre with
    | word b reads _ => exact absurd reads (hno b)
    | whole n _ reads _ => exact nomatch hwhole.symm.trans reads
    | real y _ _ reads differs =>
      obtain rfl : x = y := Option.some.inj (hreal.symm.trans reads)
      exact differs.symm
  · refine ⟨fun hne => absurd rfl hne, fun hre => ?_⟩
    cases hre with
    | word b reads _ => exact absurd reads (hno b)
    | whole n _ reads _ => exact nomatch hwhole.symm.trans reads
    | real x _ _ reads _ => exact nomatch hreal.symm.trans reads

/-! ## Texts with a slash -/

/-- A slash stays where it is. -/
theorem slash_mem_lowercase {s : List Char} (h : '/' ∈ s) : '/' ∈ lowercase s := by
  have hfrom : ∀ before, '/' ∈ lowerFrom before s := by
    induction s with
    | nil => exact nomatch h
    | cons c s ih =>
      intro before
      rw [lowerFrom, List.mem_append]
      rcases List.mem_cons.mp h with rfl | h
      · rw [if_neg (by decide)]
        exact .inl (by decide)
      · exact .inr (ih h _)
  exact hfrom []

theorem slash_mem_splitSign {s : List Char} (h : '/' ∈ s) : '/' ∈ (splitSign s).2 := by
  unfold splitSign
  split
  · exact (List.mem_cons.mp h).resolve_left (by decide)
  · exact (List.mem_cons.mp h).resolve_left (by decide)
  · exact h

theorem slash_mem_splitDigits {s : List Char} (h : '/' ∈ s) : '/' ∈ (splitDigits s).2 := by
  rw [← List.takeWhile_append_dropWhile (p := Char.isDigit) (l := s), List.mem_append] at h
  refine h.resolve_left fun hdigits => ?_
  exact nomatch List.all_eq_true.mp List.all_takeWhile '/' hdigits

theorem not_all_digits_of_slash {s : List Char} (h : '/' ∈ s) : ¬ s.all Char.isDigit = true :=
  fun hall => absurd (List.all_eq_true.mp hall '/' h) (by decide)

theorem intOfText?_slash {s : List Char} (h : '/' ∈ s) : intOfText? s = none := by
  have honly : digitsOnly? (splitSign s).2 = none :=
    if_neg fun hall => not_all_digits_of_slash (slash_mem_splitSign h) hall.2
  unfold intOfText?
  dsimp only
  rw [honly]
  rfl

theorem exponentOfText?_slash {s : List Char} (h : '/' ∈ s) :
    Binary64.exponentOfText? s = none := by
  unfold Binary64.exponentOfText?
  split
  · exact nomatch h
  · next c s =>
    split
    · next hc =>
      have hs : '/' ∈ s := (List.mem_cons.mp h).resolve_left (by rintro rfl; revert hc; decide)
      exact if_neg fun hall => not_all_digits_of_slash (slash_mem_splitSign hs) hall.2
    · rfl

theorem ofText?_slash {s : List Char} (h : '/' ∈ s) : Binary64.ofText? s = none := by
  replace h := slash_mem_splitSign h
  unfold Binary64.ofText?
  dsimp only
  generalize (splitSign s).2 = s at h ⊢
  have hword : '/' ∈ s.map Char.toLower := List.mem_map.mpr ⟨'/', h, by decide⟩
  rw [if_neg (by rintro (hw | hw) <;> rw [hw] at hword <;> revert hword <;> decide),
    if_neg (by intro hw; rw [hw] at hword; revert hword; decide)]
  have hnone {c : Prop} [Decidable c] {f : Int → Binary64} {rest : List Char}
      (hr : '/' ∈ rest) : (if c then none else (Binary64.exponentOfText? rest).map f) = none := by
    rw [exponentOfText?_slash hr]
    exact ite_self none
  have hrest := slash_mem_splitDigits h
  split
  · next t ht =>
    rw [ht] at hrest
    exact hnone (slash_mem_splitDigits ((List.mem_cons.mp hrest).resolve_left (by decide)))
  · exact hnone hrest

/-- **A path with a slash in it comes back**, whatever else it is made of. -/
theorem not_respelled_of_slash {text : String} (h : '/' ∈ text.toList) : ¬ Respelled text := by
  intro hre
  cases hre with
  | word b reads _ =>
    have hlower : lowercase text.toList = (toString b).toList := by
      rw [← reads, String.toList_ofList]
    have hmem := slash_mem_lowercase h
    rw [hlower] at hmem
    revert hmem
    cases b <;> decide
  | whole n _ reads _ => exact nomatch (intOfText?_slash h).symm.trans reads
  | real x _ _ reads _ => exact nomatch (ofText?_slash h).symm.trans reads

end Environment

end Academy
