import Academy.Proofs.Text.Ascii
import Academy.Proofs.Text.Digits
import Academy.Toml.Document

/-!
# Documents of numbers

A document can be as simple as a line for each of its members, with a
dotted key, a sign of equality and a whole number. Such a document is read
line by line, and what it comes to is what adding the members one after
the other comes to, whatever tables the keys lead through. A number may be
as great as fits 64 bits with a sign.
-/

namespace Academy

namespace Toml

/-! ## Numbers -/

theorem plainDigits?_of_digits {s : List Char} (hne : s ≠ [])
    (h : ∀ c ∈ s, c.isDigit = true) : plainDigits? Char.isDigit s = some s := by
  induction s with
  | nil => exact absurd rfl hne
  | cons c s ih =>
    have hc : c.isDigit = true := h c List.mem_cons_self
    have hs : ∀ d ∈ s, d.isDigit = true := fun d hd => h d (List.mem_cons_of_mem _ hd)
    cases s with
    | nil => exact if_pos hc
    | cons d s =>
      have hd : d ≠ '_' := by
        rintro rfl
        exact nomatch hs '_' List.mem_cons_self
      have hstep : plainDigits? Char.isDigit (c :: d :: s)
          = if c.isDigit then (plainDigits? Char.isDigit (d :: s)).map (c :: ·) else none :=
        plainDigits?.eq_4 _ c (d :: s) nofun fun _ heq => hd (List.cons.inj heq).1
      rw [hstep, if_pos hc, ih (List.cons_ne_nil d s) hs, Option.map_some]

@[simp] theorem wholeDigits?_toDigits (n : Nat) :
    wholeDigits? (Nat.toDigits 10 n) = some (Nat.toDigits 10 n) := by
  unfold wholeDigits?
  rw [plainDigits?_of_digits Nat.toDigits_ne_nil fun c => isDigit_of_mem_toDigits]
  split
  · next c s heq =>
    -- a zero with something after it is not how a number is written
    rcases Nat.eq_zero_or_pos n with rfl | hpos
    · exact nomatch heq
    · exact absurd (Option.some.inj heq) (toDigits_ne_zero_cons hpos _)
  · rfl

@[simp] theorem integer?_toDigits (n : Nat) : integer? (Nat.toDigits 10 n) = signed? n := by
  have hdigits : ∀ c ∈ Nat.toDigits 10 n, c.isDigit = true := fun c => isDigit_of_mem_toDigits
  have hwhole := wholeDigits?_toDigits n
  have hvalue := digitsValue_toDigits n
  generalize Nat.toDigits 10 n = digits at hdigits hwhole hvalue
  unfold integer?
  split
  · exact nomatch hdigits 'x' (List.mem_cons_of_mem _ List.mem_cons_self)
  · exact nomatch hdigits 'o' (List.mem_cons_of_mem _ List.mem_cons_self)
  · exact nomatch hdigits 'b' (List.mem_cons_of_mem _ List.mem_cons_self)
  · rw [splitSign_digits hdigits]
    dsimp only
    rw [hwhole, Option.bind_some, hvalue]
    rfl

theorem ofWord?_toDigits {n : Nat} (h : signed? n = some (n : Int)) :
    ofWord? (Nat.toDigits 10 n) = some (.integer n) := by
  have hword : ∀ {c : Char} {s : List Char}, c.isDigit = false → Nat.toDigits 10 n ≠ c :: s := by
    rintro c s hc heq
    have hdigit : c.isDigit = true := isDigit_of_mem_toDigits (heq ▸ List.mem_cons_self)
    exact Bool.false_ne_true (hc.symm.trans hdigit)
  unfold ofWord?
  rw [if_neg (hword rfl), if_neg (hword rfl), integer?_toDigits, h]

/-! ## Words and keys -/

theorem isWordChar_of_isDigit {c : Char} (h : c.isDigit = true) : isWordChar c = true := by
  unfold isWordChar Char.isAlphanum
  rw [h]
  simp

theorem isKeyChar_of_isDigit {c : Char} (h : c.isDigit = true) : isKeyChar c = true := by
  unfold isKeyChar Char.isAlphanum
  rw [h]
  simp

/-- A word ends with its line. -/
theorem splitWord_line {word : List Char} (h : ∀ c ∈ word, isWordChar c = true)
    (rest : List Char) : splitWord (word ++ '\n' :: rest) = (word, '\n' :: rest) := by
  have htake : (word ++ '\n' :: rest).takeWhile isWordChar = word := by
    rw [List.takeWhile_append_of_pos h, List.takeWhile_cons_of_neg (by decide), List.append_nil]
  have hdrop : (word ++ '\n' :: rest).dropWhile isWordChar = '\n' :: rest := by
    rw [List.dropWhile_append_of_pos h, List.dropWhile_cons_of_neg (by decide)]
  unfold splitWord
  rw [htake, hdrop]
  rfl

/-- **A number at the end of a line is read as it is written.** -/
theorem readValue_toDigits {n : Nat} (h : signed? n = some (n : Int)) (fuel room : Nat)
    (rest : List Char) :
    readValue (fuel + 1) (room + 1) (Nat.toDigits 10 n ++ '\n' :: rest)
      = some (.integer n, '\n' :: rest) := by
  have hdigits : ∀ c ∈ Nat.toDigits 10 n, c.isDigit = true := fun c => isDigit_of_mem_toDigits
  have hsplit := splitWord_line (fun c hc => isWordChar_of_isDigit (hdigits c hc)) rest
  have hword := ofWord?_toDigits h
  have hne : Nat.toDigits 10 n ≠ [] := Nat.toDigits_ne_nil
  generalize Nat.toDigits 10 n = digits at hdigits hsplit hword hne
  cases digits with
  | nil => exact absurd rfl hne
  | cons c digits =>
    have hc : c.isDigit = true := hdigits c List.mem_cons_self
    have hother : ∀ d : Char, d.isDigit = false → c ≠ d := by
      rintro d hd rfl
      exact Bool.false_ne_true (hd.symm.trans hc)
    rw [List.cons_append] at hsplit ⊢
    rw [readValue.eq_def]
    split
    · next heq => exact absurd heq (Nat.succ_ne_zero fuel)
    · next hroom _ => exact absurd hroom (Nat.succ_ne_zero room)
    · next hroom _ => exact absurd hroom (Nat.succ_ne_zero room)
    · next heq => exact absurd (List.cons.inj heq).1 (hother _ rfl)
    · next heq => exact absurd (List.cons.inj heq).1 (hother _ rfl)
    · split
      · next heq => exact absurd (List.cons.inj heq).1 (hother _ rfl)
      · next heq => exact absurd (List.cons.inj heq).1 (hother _ rfl)
      · rw [hsplit]
        dsimp only
        rw [hword, Option.map_some]

/-! ## Keys -/

/-- A name that can be a key without quotes. -/
def IsPlainKey (key : String) : Prop :=
  key.toList ≠ [] ∧ ∀ c ∈ key.toList, isKeyChar c = true

instance (key : String) : Decidable (IsPlainKey key) :=
  decidable_of_iff (key.toList ≠ [] ∧ key.toList.all isKeyChar = true)
    (and_congr_right' List.all_eq_true)

/-- Names with dots between them. -/
def dottedKey : List String → List Char
  | [] => []
  | [key] => key.toList
  | key :: keys => key.toList ++ '.' :: dottedKey keys

theorem isLineBlank_of_isKeyChar {c : Char} (h : isKeyChar c = true) : isLineBlank c = false := by
  by_contra hblank
  rw [Bool.not_eq_false, isLineBlank, Bool.or_eq_true, decide_eq_true_iff, decide_eq_true_iff]
    at hblank
  rcases hblank with rfl | rfl
  · exact nomatch h
  · exact nomatch h

/-- A key goes as far as its characters. -/
theorem readSimpleKey?_append {key : String} (h : IsPlainKey key) {c : Char}
    (hc : isKeyChar c = false) (rest : List Char) :
    readSimpleKey? (key.toList ++ c :: rest) = some (key, c :: rest) := by
  obtain ⟨hne, hchars⟩ := h
  have htake : (key.toList ++ c :: rest).takeWhile isKeyChar = key.toList := by
    rw [List.takeWhile_append_of_pos hchars,
      List.takeWhile_cons_of_neg (Bool.eq_false_iff.mp hc), List.append_nil]
  have hdrop : (key.toList ++ c :: rest).dropWhile isKeyChar = c :: rest := by
    rw [List.dropWhile_append_of_pos hchars,
      List.dropWhile_cons_of_neg (Bool.eq_false_iff.mp hc)]
  have hquote : ∀ d s, isKeyChar d = false → key.toList ++ c :: rest ≠ d :: s := by
    intro d s hd heq
    obtain ⟨e, t, hkey⟩ := List.exists_cons_of_ne_nil hne
    have he : isKeyChar e = true := hchars e (hkey ▸ List.mem_cons_self)
    rw [hkey, List.cons_append, List.cons.injEq] at heq
    exact Bool.false_ne_true (hd.symm.trans (heq.1 ▸ he))
  have hempty : ¬ key.toList.isEmpty = true := fun h => hne (List.isEmpty_iff.mp h)
  unfold readSimpleKey?
  split
  · next heq => exact absurd heq (hquote _ _ rfl)
  · next heq => exact absurd heq (hquote _ _ rfl)
  · dsimp only
    rw [htake, hdrop, if_neg hempty, String.ofList_toList]

/-- **A dotted key is read as its names**, up to the sign of equality. -/
theorem readKeyWithin?_dottedKey {keys : List String} (hne : keys ≠ [])
    (h : ∀ key ∈ keys, IsPlainKey key) {room : Nat} (hroom : keys.length ≤ room)
    (rest : List Char) :
    readKeyWithin? room (dottedKey keys ++ ' ' :: '=' :: rest) = some (keys, '=' :: rest) := by
  induction keys generalizing room with
  | nil => exact absurd rfl hne
  | cons key keys ih =>
    obtain ⟨room, rfl⟩ : ∃ r, room = r + 1 := Nat.exists_eq_succ_of_ne_zero (by
      rw [List.length_cons] at hroom
      omega)
    have hkey := h key List.mem_cons_self
    have hskip : ∀ t, skipLineBlanks (key.toList ++ t) = key.toList ++ t := by
      intro t
      obtain ⟨d, s, heq⟩ := List.exists_cons_of_ne_nil hkey.1
      have hd : isKeyChar d = true := hkey.2 d (heq ▸ List.mem_cons_self)
      rw [heq, List.cons_append]
      exact List.dropWhile_cons_of_neg (Bool.eq_false_iff.mp (isLineBlank_of_isKeyChar hd))
    cases keys with
    | nil =>
      show readKeyWithin? (room + 1) (key.toList ++ ' ' :: '=' :: rest) = _
      rw [readKeyWithin?, hskip, readSimpleKey?_append hkey rfl]
      rfl
    | cons next keys =>
      have ih := ih (List.cons_ne_nil next keys) (fun k hk => h k (List.mem_cons_of_mem _ hk))
        (Nat.le_of_succ_le_succ hroom)
      have htext : dottedKey (key :: next :: keys) ++ ' ' :: '=' :: rest
          = key.toList ++ '.' :: (dottedKey (next :: keys) ++ ' ' :: '=' :: rest) := by
        rw [dottedKey, List.append_assoc, List.cons_append]
        exact List.cons_ne_nil next keys
      rw [htext, readKeyWithin?, hskip, readSimpleKey?_append hkey rfl]
      show ((readKeyWithin? room (dottedKey (next :: keys) ++ ' ' :: '=' :: rest)).bind fun read =>
        some (key :: read.1, read.2)) = _
      rw [ih, Option.bind_some]

/-! ## Lines -/

/-- **A line of a document** that gives a number to a dotted key. -/
def memberLine (keys : List String) (n : Nat) : List Char :=
  dottedKey keys ++ ' ' :: '=' :: ' ' :: (Nat.toDigits 10 n ++ ['\n'])

/-- What a line adds to the members of the root. -/
def addMember (root : TomlMembers) (member : List String × Nat) : Option TomlMembers :=
  assign (member.1.getLastD "") (.integer member.2) member.1.dropLast root

/-- **A member that can be written as a line**: its key has few names, none of
which needs quotes, and its number fits 64 bits with a sign. -/
structure IsPlainMember (member : List String × Nat) : Prop where
  /-- There is a name. -/
  ne_nil : member.1 ≠ []
  /-- There are not too many. -/
  length_le : member.1.length ≤ keyLimit
  /-- No name needs quotes. -/
  plain : ∀ key ∈ member.1, IsPlainKey key
  /-- The number fits. -/
  fits : signed? member.2 = some (member.2 : Int)

/-- Lines begin with a character of a key. -/
theorem exists_memberLine_cons {member : List String × Nat} (h : IsPlainMember member) :
    ∃ c s, memberLine member.1 member.2 = c :: s ∧ isKeyChar c = true := by
  obtain ⟨keys, n⟩ := member
  have hne : keys ≠ [] := h.ne_nil
  cases keys with
  | nil => exact absurd rfl hne
  | cons key keys =>
    have hkey : IsPlainKey key := h.plain key List.mem_cons_self
    obtain ⟨c, s, heq⟩ := List.exists_cons_of_ne_nil hkey.1
    have hc : isKeyChar c = true := hkey.2 c (heq ▸ List.mem_cons_self)
    unfold memberLine
    cases keys with
    | nil =>
      rw [dottedKey, heq]
      exact ⟨c, _, rfl, hc⟩
    | cons next keys =>
      rw [dottedKey, heq]
      · exact ⟨c, _, rfl, hc⟩
      · exact List.cons_ne_nil next keys

/-- **A line is read as its member**, up to its end. -/
theorem readStatement?_memberLine {member : List String × Nat} (h : IsPlainMember member)
    (root : TomlMembers) (rest : List Char) :
    readStatement? ⟨root, []⟩ (memberLine member.1 member.2 ++ rest)
      = (addMember root member).map fun root => (⟨root, []⟩, '\n' :: rest) := by
  obtain ⟨c, s, heq, hc⟩ := exists_memberLine_cons h
  have hkey := readKeyWithin?_dottedKey h.ne_nil h.plain h.length_le
    (' ' :: (Nat.toDigits 10 member.2 ++ '\n' :: rest))
  have hline : memberLine member.1 member.2 ++ rest = dottedKey member.1 ++
      ' ' :: '=' :: ' ' :: (Nat.toDigits 10 member.2 ++ '\n' :: rest) := by
    unfold memberLine
    simp only [List.append_assoc, List.cons_append, List.nil_append]
  rw [← hline] at hkey
  have hbracket : c ≠ '[' := by
    rintro rfl
    exact nomatch hc
  have hskip : skipLineBlanks (' ' :: (Nat.toDigits 10 member.2 ++ '\n' :: rest))
      = Nat.toDigits 10 member.2 ++ '\n' :: rest := by
    have hdigit : ∀ d ∈ Nat.toDigits 10 member.2, isLineBlank d = false := fun d hd =>
      isLineBlank_of_isKeyChar (isKeyChar_of_isDigit (isDigit_of_mem_toDigits hd))
    obtain ⟨d, t, hdigits⟩ := List.exists_cons_of_ne_nil
      (Nat.toDigits_ne_nil : Nat.toDigits 10 member.2 ≠ [])
    have hd := hdigit d (hdigits ▸ List.mem_cons_self)
    rw [skipLineBlanks, List.dropWhile_cons_of_pos (by decide), hdigits, List.cons_append]
    exact List.dropWhile_cons_of_neg (Bool.eq_false_iff.mp hd)
  rw [heq, List.cons_append] at hkey ⊢
  unfold readStatement?
  split
  · next heq => exact absurd (List.cons.inj heq).1 hbracket
  · next heq => exact absurd (List.cons.inj heq).1 hbracket
  · rw [readKey?, hkey]
    simp only [Option.bind_eq_bind, Option.bind_some]
    rw [hskip, nestingLimit, readValue_toDigits h.fits]
    simp only [Option.bind_some]
    show (addMember root member).bind _ = _
    cases addMember root member <;> rfl

/-- Nothing is passed over before a line. -/
theorem skipLines_memberLine {member : List String × Nat} (h : IsPlainMember member)
    (rest : List Char) :
    skipLines false (memberLine member.1 member.2 ++ rest)
      = memberLine member.1 member.2 ++ rest := by
  obtain ⟨c, s, heq, hc⟩ := exists_memberLine_cons h
  have hne : ∀ d : Char, isKeyChar d = false → c ≠ d := by
    rintro d hd rfl
    exact Bool.false_ne_true (hd.symm.trans hc)
  rw [heq, List.cons_append, skipLines.eq_def]
  split
  · next heq => exact absurd (List.cons.inj heq).1 (hne _ rfl)
  · next heq => exact absurd (List.cons.inj heq).1 (hne _ rfl)
  · next heq =>
    obtain ⟨rfl, rfl⟩ := List.cons.inj heq
    rw [if_neg Bool.false_ne_true, if_neg (Bool.eq_false_iff.mp (isLineBlank_of_isKeyChar hc)),
      if_neg (hne _ rfl)]
  · next heq => exact nomatch heq

/-! ## Documents -/

/-- **The text of a document** that gives numbers to dotted keys. -/
def linesText (members : List (List String × Nat)) : List Char :=
  members.flatMap fun member => memberLine member.1 member.2

theorem isAscii_of_isKeyChar {c : Char} (h : isKeyChar c = true) : IsAscii c := by
  rw [isKeyChar, Bool.or_eq_true, Bool.or_eq_true, decide_eq_true_iff, decide_eq_true_iff] at h
  rcases h with (h | rfl) | rfl
  · exact isAscii_of_isAlphanum h
  · decide
  · decide

theorem isAscii_dottedKey {keys : List String} (h : ∀ key ∈ keys, IsPlainKey key) :
    ∀ c ∈ dottedKey keys, IsAscii c := by
  induction keys with
  | nil => exact nofun
  | cons key keys ih =>
    have hkey : ∀ c ∈ key.toList, IsAscii c := fun c hc =>
      isAscii_of_isKeyChar ((h key List.mem_cons_self).2 c hc)
    cases keys with
    | nil => exact hkey
    | cons next keys =>
      rw [dottedKey, List.forall_mem_append, List.forall_mem_cons]
      · exact ⟨hkey, by decide, ih fun k hk => h k (List.mem_cons_of_mem _ hk)⟩
      · exact List.cons_ne_nil next keys

/-- Such a document has characters of one byte only. -/
theorem isAscii_linesText {members : List (List String × Nat)}
    (h : ∀ member ∈ members, IsPlainMember member) : ∀ c ∈ linesText members, IsAscii c := by
  intro c hc
  obtain ⟨member, hmember, hc⟩ := List.mem_flatMap.mp hc
  have hdigits : ∀ c ∈ Nat.toDigits 10 member.2, IsAscii c := fun c hc =>
    isAscii_of_isKeyChar (isKeyChar_of_isDigit (isDigit_of_mem_toDigits hc))
  have hline : ∀ c ∈ memberLine member.1 member.2, IsAscii c := by
    unfold memberLine
    rw [List.forall_mem_append, List.forall_mem_cons, List.forall_mem_cons, List.forall_mem_cons,
      List.forall_mem_append]
    exact ⟨isAscii_dottedKey (h member hmember).plain, by decide, by decide, by decide, hdigits,
      List.forall_mem_singleton.mpr (by decide)⟩
  exact hline c hc

/-- **A document is read line by line**, as long as there is fuel for its
lines. -/
theorem readStatements?_linesText {members : List (List String × Nat)}
    (h : ∀ member ∈ members, IsPlainMember member) {fuel : Nat} (hfuel : members.length < fuel)
    (root : TomlMembers) :
    readStatements? fuel ⟨root, []⟩ (linesText members) = members.foldlM addMember root := by
  induction members generalizing fuel root with
  | nil =>
    obtain ⟨fuel, rfl⟩ : ∃ f, fuel = f + 1 := Nat.exists_eq_succ_of_ne_zero hfuel.ne'
    rfl
  | cons member members ih =>
    obtain ⟨fuel, rfl⟩ : ∃ f, fuel = f + 1 := Nat.exists_eq_succ_of_ne_zero (by omega)
    have hmember := h member List.mem_cons_self
    have ih := ih (fun m hm => h m (List.mem_cons_of_mem _ hm)) (Nat.lt_of_succ_lt_succ hfuel)
    have htext : linesText (member :: members)
        = memberLine member.1 member.2 ++ linesText members := rfl
    have hread := readStatement?_memberLine hmember root (linesText members)
    have hskip := skipLines_memberLine hmember (linesText members)
    obtain ⟨c, s, heq, -⟩ := exists_memberLine_cons hmember
    rw [htext, readStatements?, hskip]
    rw [heq, List.cons_append] at hread ⊢
    show (readStatement? ⟨root, []⟩ (c :: (s ++ linesText members))).bind _ = _
    rw [hread, List.foldlM_cons]
    cases addMember root member with
    | none => rfl
    | some root => exact ih root

theorem ofText?_linesText {members : List (List String × Nat)}
    (h : ∀ member ∈ members, IsPlainMember member) :
    ofText? (linesText members) = members.foldlM addMember [] := by
  have hmark : withoutMark (linesText members) = linesText members := by
    cases members with
    | nil => rfl
    | cons member members =>
      obtain ⟨c, s, heq, hc⟩ := exists_memberLine_cons (h member List.mem_cons_self)
      have hne : c ≠ Char.ofNat 0xFEFF := by
        rintro rfl
        exact nomatch hc
      show withoutMark (memberLine member.1 member.2 ++ linesText members)
        = memberLine member.1 member.2 ++ linesText members
      rw [heq, List.cons_append]
      exact if_neg hne
  have hlength : ∀ members : List (List String × Nat),
      members.length ≤ (linesText members).length := by
    intro members
    induction members with
    | nil => exact Nat.le_refl 0
    | cons member members ih =>
      show _ ≤ (memberLine member.1 member.2 ++ linesText members).length
      rw [List.length_cons, List.length_append, memberLine, List.length_append, List.length_cons]
      omega
  rw [ofText?, hmark]
  exact readStatements?_linesText h (Nat.lt_succ_of_le (hlength members)) []

end Toml

end Academy
