import Academy.CommandLine.Invocation
import Academy.Proofs.Settings.Layers

/-!
# Flags are read one by one

The arguments of a command that no other command follows are flags, each
with its value behind an equals sign or as the next argument. Whether such
a flag is accepted depends on itself and on the names that have been met:
there has to be an option for it, with a value that is none of its faults,
and it must not have been given before.

That is not how it is found out. A value that is the next argument is not
looked at before the next flag begins, so an error can be met later than
where it is, and another error before it. What carries the induction is
what the options come to once they are finished (`OptionState.settle`): if
they come to nothing but an error, no flag that follows can mend it, since
a flag is no value. So a command ends well exactly if each flag is accepted,
and which error it ends with otherwise is left open.
-/

namespace Academy

/-! ## Flags as they are written -/

/-- **What a flag is called by.** -/
inductive FlagKey
  /-- A name, which ends at an equals sign and is not empty. -/
  | name (s : String) (hs : s ≠ "" ∧ '=' ∉ s.toList)
  /-- A letter, which is not the hyphen that a name begins with. -/
  | letter (c : Char) (hc : c ≠ '-')

/-- **Where the value of a flag is.** -/
inductive FlagValue
  /-- There is none. -/
  | missing
  /-- It is the next argument. -/
  | next (text : String)
  /-- It is behind an equals sign. -/
  | after (text : String)

/-- **A flag as it is written.** -/
structure WrittenFlag where
  /-- What it is called by. -/
  key : FlagKey
  /-- Where its value is. -/
  value : FlagValue

/-- A name or a letter with its hyphens. -/
def FlagKey.text : FlagKey → String
  | name s _ => "--" ++ s
  | letter c _ => "-" ++ String.ofList [c]

/-- **The arguments that a flag comes to.** -/
def WrittenFlag.arguments (f : WrittenFlag) : List String :=
  match f.value with
  | .missing => [f.key.text]
  | .next text => [f.key.text, text]
  | .after text => [f.key.text ++ "=" ++ text]

/-- The value of a flag, if it has one. The next argument is a value if it is no
flag by its looks. -/
def FlagValue.text? : FlagValue → Option String
  | missing => none
  | next text => if ArgumentForm.of text = .plain then some text else none
  | after text => some text

/-! ## What they look like -/

namespace ArgumentForm

/-- Two hyphens and a name, and perhaps a value behind an equals sign. -/
theorem of_long {argument : String} {s : List Char} (value : Option (List Char))
    (h : argument.toList = '-' :: '-' :: (s ++ value.elim [] ('=' :: ·))) (hne : s ≠ [])
    (heq : '=' ∉ s) : of argument = .long (String.ofList s) (value.map String.ofList) := by
  have hall : ∀ c ∈ s, decide (c ≠ '=') = true := fun c hc =>
    decide_eq_true fun h => heq (h ▸ hc)
  unfold of
  rw [h]
  split
  · next hescape =>
    have hnil := (List.cons.inj (List.cons.inj hescape).2).2
    exact absurd (List.append_eq_nil_iff.mp hnil).1 hne
  · next hlong =>
    obtain rfl := (List.cons.inj (List.cons.inj hlong).2).2
    dsimp only
    rw [List.takeWhile_append_of_pos hall, List.dropWhile_append_of_pos hall]
    cases value with
    | none =>
      show ArgumentForm.long (String.ofList (s ++ [])) none = _
      rw [List.append_nil]
      rfl
    | some value =>
      show ArgumentForm.long (String.ofList (s ++ [])) (some (String.ofList value)) = _
      rw [List.append_nil]
      rfl
  · next hhyphen heq => exact (hhyphen (List.cons.inj (List.cons.inj heq).2).1.symm).elim
  · next hother => exact (hother _ _ rfl).elim

/-- One hyphen, and something after it. -/
theorem of_short {argument : String} {c : Char} {s : List Char}
    (h : argument.toList = '-' :: c :: s) (hc : c ≠ '-') : of argument = .short (c :: s) := by
  unfold of
  rw [h]
  split
  · next heq => exact absurd (List.cons.inj (List.cons.inj heq).2).1 hc
  · next heq => exact absurd (List.cons.inj (List.cons.inj heq).2).1 hc
  · next heq =>
    obtain ⟨rfl, rfl⟩ := List.cons.inj (List.cons.inj heq).2
    rfl
  · next hother => exact absurd rfl (hother c s)

theorem ne_nil_of_short {argument : String} {letters : List Char}
    (h : of argument = .short letters) : letters ≠ [] := by
  unfold of at h
  split at h
  · exact nomatch h
  · dsimp only at h
    split at h <;> exact nomatch h
  · exact short.inj h ▸ List.cons_ne_nil _ _
  · exact nomatch h

end ArgumentForm

/-- What is met of a flag, with its value behind an equals sign or without one. -/
def FlagKey.form (value : Option String) : FlagKey → ArgumentForm
  | name s _ => .long s value
  | letter c _ => .short (match value with
    | none => [c]
    | some text => c :: '=' :: text.toList)

@[simp] theorem FlagKey.form_text (key : FlagKey) : ArgumentForm.of key.text = key.form none := by
  cases key with
  | name s hs =>
    have htext : ("--" ++ s).toList = '-' :: '-' :: (s.toList ++ []) := by
      rw [String.toList_append, List.append_nil]
      rfl
    refine (ArgumentForm.of_long none htext
      (mt String.toList_eq_nil_iff.mp hs.1) hs.2).trans ?_
    rw [String.ofList_toList]
    rfl
  | letter c hc =>
    have htext : ("-" ++ String.ofList [c]).toList = ['-', c] := by
      rw [String.toList_append, show (String.ofList [c]).toList = [c] from String.toList_ofList]
      rfl
    exact ArgumentForm.of_short htext hc

@[simp] theorem FlagKey.form_after (key : FlagKey) (text : String) :
    ArgumentForm.of (key.text ++ "=" ++ text) = key.form (some text) := by
  cases key with
  | name s hs =>
    have htext : ("--" ++ s ++ "=" ++ text).toList
        = '-' :: '-' :: (s.toList ++ '=' :: text.toList) := by
      rw [String.toList_append, String.toList_append, String.toList_append, List.append_assoc,
        List.append_assoc]
      rfl
    refine (ArgumentForm.of_long (some text.toList) htext
      (mt String.toList_eq_nil_iff.mp hs.1) hs.2).trans ?_
    rw [Option.map_some, String.ofList_toList, String.ofList_toList]
    rfl
  | letter c hc =>
    have htext : ("-" ++ String.ofList [c] ++ "=" ++ text).toList
        = '-' :: c :: '=' :: text.toList := by
      rw [String.toList_append, String.toList_append, String.toList_append,
        show (String.ofList [c]).toList = [c] from String.toList_ofList]
      rfl
    exact ArgumentForm.of_short htext hc

/-! ## What they come to -/

namespace CommandRule

variable {rule : CommandRule} {state : OptionState} {key : FlagKey} {option : OptionRule}

/-- The option that a flag is for. -/
def option? (rule : CommandRule) : FlagKey → Option OptionRule
  | .name s _ => rule.options.find? (·.name = s)
  | .letter c _ => rule.options.find? (·.letter = some c)

/-- Meets a flag. -/
def meet (rule : CommandRule) (state : OptionState) (value : Option String) :
    FlagKey → Except UsageError OptionState
  | .name s _ => rule.long state s value
  | .letter c _ => rule.short state (match value with
    | none => [c]
    | some text => c :: '=' :: text.toList)

/-- A flag for which there is an option. -/
theorem meet_of_option (h : rule.option? key = some option) (value : Option String) :
    rule.meet state value key = match value with
      | some text => state.take option text
      | none => state.begin option := by
  cases key with
  | name s hs =>
    show rule.long state s value = _
    unfold long
    rw [show rule.options.find? (·.name = s) = some option from h]
    cases value <;> rfl
  | letter c hc =>
    have hfind : rule.options.find? (·.letter = some c) = some option := h
    cases value with
    | none =>
      show rule.short state [c] = _
      simp only [short, hfind]
    | some text =>
      show rule.short state (c :: '=' :: text.toList) = _
      simp only [short, hfind]
      show state.take option (String.ofList text.toList) = _
      rw [String.ofList_toList]

theorem finish_error (error : UsageError) : ∃ e, state.finish error = .error e := by
  unfold OptionState.finish
  cases state.settle with
  | error e => exact ⟨e, rfl⟩
  | ok _ => exact ⟨error, rfl⟩

/-- A name for which there is no option is an error, or a flag that ends everything. -/
theorem long_of_none {name : String} (h : rule.options.find? (·.name = name) = none)
    (value : Option String) : ∃ e, rule.long state name value = .error e := by
  unfold long
  rw [h]
  dsimp only
  split
  · split
    · exact ⟨_, rfl⟩
    · exact finish_error _
  · exact ⟨_, rfl⟩

theorem short_of_none {c : Char} (h : rule.options.find? (·.letter = some c) = none)
    (s : List Char) : ∃ e, rule.short state (c :: s) = .error e := by
  simp only [short, h]
  split
  · exact finish_error _
  · split
    · exact finish_error _
    · exact ⟨_, rfl⟩

theorem meet_of_none (h : rule.option? key = none) (state : OptionState)
    (value : Option String) :
    ∃ e, rule.meet state value key = .error e := by
  cases key with
  | name s hs => exact long_of_none h value
  | letter c hc => cases value <;> exact short_of_none h _

/-- **What arguments come to**, with the options that have been met before. -/
def outcome (rule : CommandRule) (arguments : List String) (state : OptionState) :
    Except UsageError (List (String × String)) := do
  let (state, _) ← rule.read arguments state
  pure (← state.settle).given

theorem outcome_nil : rule.outcome [] state = state.settle.map (·.given) := by
  show (state.settle >>= fun state => pure state.given) = _
  cases state.settle <;> rfl

/-- An argument that looks like a flag is no value, whatever comes before it. -/
theorem read_cons (hcommands : rule.commands = []) {argument : String}
    (h : ArgumentForm.of argument ≠ .plain) (rest : List String) :
    rule.read (argument :: rest) state = match ArgumentForm.of argument with
      | .escape =>
        match rest with
        | [] => .ok (state, none)
        | argument :: _ => .error (rule.stray true argument)
      | .long name value => rule.long state name value >>= rule.read rest
      | .short letters => rule.short state letters >>= rule.read rest
      | .plain => .error (rule.stray false argument) := by
  rw [read.eq_def]
  dsimp only
  rw [hcommands]
  split
  · next hplain => exact absurd hplain h
  · exact if_neg (by rw [List.contains_nil, Bool.and_false]; exact Bool.false_ne_true)

/-- **A flag is met.** -/
theorem outcome_flag (hcommands : rule.commands = []) {argument : String} {value : Option String}
    (h : ArgumentForm.of argument = key.form value) (rest : List String) :
    rule.outcome (argument :: rest) state = rule.meet state value key >>= rule.outcome rest := by
  have hread : rule.read (argument :: rest) state
      = rule.meet state value key >>= rule.read rest := by
    cases key with
    | name s hs =>
      rw [read_cons hcommands (by rw [h]; exact nofun), h]
      rfl
    | letter c hc =>
      rw [read_cons hcommands (by rw [h]; exact nofun), h]
      rfl
  unfold outcome
  rw [hread, bind_assoc]

/-- The next argument is the value of an option that has none, if it is no flag by
its looks. -/
theorem outcome_value {argument : String} (h : ArgumentForm.of argument = .plain)
    (hpending : state.pending = some (option, none)) (rest : List String) :
    rule.outcome (argument :: rest) state
      = rule.outcome rest ⟨state.given, some (option, some argument)⟩ := by
  unfold outcome
  rw [read.eq_def]
  dsimp only
  rw [h, hpending]

/-! ### Options that cannot be finished -/

section

variable {error : UsageError}

theorem begin_of_unsettled (hstate : state.settle = .error error) (option : OptionRule) :
    state.begin option = .error error := by
  unfold OptionState.begin
  rw [hstate]
  rfl

theorem take_of_unsettled (hstate : state.settle = .error error) (option : OptionRule)
    (text : String) : state.take option text = .error error := by
  unfold OptionState.take
  rw [hstate]
  rfl

/-- A name is met with an error, be there such an option or not. -/
theorem long_of_unsettled (hstate : state.settle = .error error) (name : String)
    (value : Option String) : ∃ e, rule.long state name value = .error e := by
  cases hfind : rule.options.find? (·.name = name) with
  | none => exact long_of_none hfind value
  | some option =>
    unfold long
    rw [hfind]
    cases value with
    | none => exact ⟨error, begin_of_unsettled hstate option⟩
    | some text => exact ⟨error, take_of_unsettled hstate option text⟩

/-- And so are letters. -/
theorem short_of_unsettled (hstate : state.settle = .error error) (c : Char) (s : List Char) :
    ∃ e, rule.short state (c :: s) = .error e := by
  cases hfind : rule.options.find? (·.letter = some c) with
  | none => exact short_of_none hfind s
  | some option =>
    simp only [short, hfind]
    split
    · exact ⟨error, begin_of_unsettled hstate _⟩
    · exact ⟨error, take_of_unsettled hstate _ _⟩
    · exact ⟨error, take_of_unsettled hstate _ _⟩
    · next h => exact nomatch h

/-- **What comes to an error stays one.** Options that cannot be finished are not
mended by an argument that looks like a flag, nor by the end of the arguments. -/
theorem outcome_of_unsettled (hcommands : rule.commands = [])
    (hstate : state.settle = .error error) (arguments : List String)
    (hfirst : ∀ argument ∈ arguments.head?, ArgumentForm.of argument ≠ .plain) :
    ∃ e, rule.outcome arguments state = .error e := by
  rcases arguments with _ | ⟨argument, rest⟩
  · rw [outcome_nil, hstate]
    exact ⟨error, rfl⟩
  have hform := hfirst argument rfl
  unfold outcome
  rw [read_cons hcommands hform]
  have hstops : ∀ attempt : Except UsageError OptionState, (∃ e, attempt = .error e) →
      ∃ e, (do
        let (state, _) ← attempt >>= rule.read rest
        pure (← state.settle).given) = Except.error e := by
    rintro _ ⟨e, rfl⟩
    exact ⟨e, rfl⟩
  cases hof : ArgumentForm.of argument with
  | escape =>
    cases rest with
    | nil =>
      refine ⟨error, ?_⟩
      show (state.settle >>= fun state => pure state.given) = _
      rw [hstate]
      rfl
    | cons => exact ⟨_, rfl⟩
  | long name value => exact hstops _ (long_of_unsettled hstate name value)
  | short letters =>
    obtain ⟨c, s, rfl⟩ := List.exists_cons_of_ne_nil (ArgumentForm.ne_nil_of_short hof)
    exact hstops _ (short_of_unsettled hstate c s)
  | plain => exact absurd hof hform

end

/-! ## A flag, and all of them -/

/-- **What a flag says by itself**: the name of its option, and a value that is none
of the option's faults. -/
def entry? (rule : CommandRule) (f : WrittenFlag) : Option (String × String) := do
  let option ← rule.option? f.key
  let text ← f.value.text?
  if option.fault text = none then some (option.name, text) else none

/-- The first argument of a flag looks like one. -/
theorem form_of_mem_head? {flags : List WrittenFlag} :
    ∀ argument ∈ (flags.flatMap WrittenFlag.arguments).head?,
      ArgumentForm.of argument ≠ .plain := by
  have hform : ∀ (key : FlagKey) value, key.form value ≠ .plain := by
    intro key value
    cases key <;> exact nofun
  cases flags with
  | nil => exact nofun
  | cons f flags =>
    obtain ⟨key, value⟩ := f
    cases value <;> rintro _ ⟨⟩
    · exact key.form_text ▸ hform key none
    · exact key.form_text ▸ hform key none
    · exact key.form_after _ ▸ hform key _

/-- An option with its value is finished if its name is new and the value none of its
faults. -/
theorem settle_cases {f : WrittenFlag} {text : String} (hoption : rule.option? f.key = some option)
    (htext : f.value.text? = some text) (given : List (String × String)) :
    (∃ entry, rule.entry? f = some entry ∧ given.lookup entry.1 = none ∧
      OptionState.settle ⟨given, some (option, some text)⟩ = .ok ⟨given ++ [entry], none⟩) ∨
    ((∀ entry, rule.entry? f = some entry → given.lookup entry.1 ≠ none) ∧
      ∃ error, OptionState.settle ⟨given, some (option, some text)⟩ = .error error) := by
  have hentry : rule.entry? f
      = if option.fault text = none then some (option.name, text) else none := by
    unfold entry?
    rw [hoption, htext]
    rfl
  unfold OptionState.settle
  dsimp only
  rw [hentry]
  cases hlookup : given.lookup option.name with
  | some value =>
    refine .inr ⟨fun entry h => ?_, _, rfl⟩
    split at h
    · obtain rfl := Option.some.inj h
      rw [hlookup]
      exact nofun
    · exact nomatch h
  | none =>
    cases hfault : option.fault text with
    | some error => exact .inr ⟨fun entry h => (nomatch h), _, rfl⟩
    | none => exact .inl ⟨_, rfl, hlookup, rfl⟩

/-- **What becomes of a command at a flag**, where some options have been met and some
arguments follow. -/
inductive Step (rule : CommandRule) (given : List (String × String)) (f : WrittenFlag)
    (rest : List String) (ended : Except UsageError (List (String × String))) : Prop
  /-- The flag is accepted, and the command goes on. -/
  | accepted {entry : String × String} (next : OptionState) (hentry : rule.entry? f = some entry)
    (hnew : given.lookup entry.1 = none) (hnext : next.settle = .ok ⟨given ++ [entry], none⟩)
    (hended : ended = rule.outcome rest next)
  /-- The flag is not accepted, and the command ends with an error, perhaps later. -/
  | refused (error : UsageError)
    (hentry : ∀ entry, rule.entry? f = some entry → given.lookup entry.1 ≠ none)
    (hended : ended = .error error)

/-- A flag for which there is no option. -/
theorem step_of_none (hcommands : rule.commands = []) {f : WrittenFlag}
    (hoption : rule.option? f.key = none) (given : List (String × String)) (rest : List String) :
    rule.Step given f rest (rule.outcome (f.arguments ++ rest) state) := by
  obtain ⟨argument, behind, value, hform, harguments⟩ : ∃ argument behind value,
      ArgumentForm.of argument = f.key.form value ∧ f.arguments = argument :: behind := by
    obtain ⟨key, value⟩ := f
    cases value with
    | missing => exact ⟨_, _, none, key.form_text, rfl⟩
    | next text => exact ⟨_, _, none, key.form_text, rfl⟩
    | after text => exact ⟨_, _, some text, key.form_after text, rfl⟩
  have hentry : rule.entry? f = none := by
    unfold entry?
    rw [hoption]
    rfl
  obtain ⟨e, he⟩ := meet_of_none hoption state value
  refine .refused e (fun entry h => nomatch hentry.symm.trans h) ?_
  rw [harguments, List.cons_append, outcome_flag hcommands hform, he]
  rfl

/-- An option is waiting for its value after its flag. -/
theorem outcome_key (hcommands : rule.commands = []) (hoption : rule.option? key = some option)
    {given : List (String × String)} (hstate : state.settle = .ok ⟨given, none⟩)
    (rest : List String) :
    rule.outcome (key.text :: rest) state = rule.outcome rest ⟨given, some (option, none)⟩ := by
  rw [outcome_flag hcommands key.form_text, meet_of_option hoption]
  show (state.begin option >>= _) = _
  unfold OptionState.begin
  rw [hstate]
  rfl

/-- An option with a value behind an equals sign is finished at once. -/
theorem outcome_after (hcommands : rule.commands = []) (hoption : rule.option? key = some option)
    {given : List (String × String)} (hstate : state.settle = .ok ⟨given, none⟩) (text : String)
    (rest : List String) :
    rule.outcome ((key.text ++ "=" ++ text) :: rest) state
      = OptionState.settle ⟨given, some (option, some text)⟩ >>= rule.outcome rest := by
  rw [outcome_flag hcommands (key.form_after text), meet_of_option hoption]
  show (state.take option text >>= _) = _
  unfold OptionState.take
  rw [hstate]
  rfl

/-- A flag without a value says nothing by itself. -/
theorem entry?_of_text?_none {f : WrittenFlag} (h : f.value.text? = none) :
    rule.entry? f = none := by
  unfold entry?
  rw [h]
  cases rule.option? f.key <;> rfl

/-- **A flag is accepted, or its command ends with an error.** -/
theorem step (hcommands : rule.commands = []) {given : List (String × String)}
    (hstate : state.settle = .ok ⟨given, none⟩) (f : WrittenFlag) {rest : List String}
    (hrest : ∀ argument ∈ rest.head?, ArgumentForm.of argument ≠ .plain) :
    rule.Step given f rest (rule.outcome (f.arguments ++ rest) state) := by
  cases hoption : rule.option? f.key with
  | none => exact step_of_none hcommands hoption given rest
  | some option =>
    obtain ⟨key, value⟩ := f
    have hbegin := outcome_key hcommands hoption hstate
    have hunsettled : OptionState.settle ⟨given, some (option, none)⟩ = .error .missingValue := rfl
    cases value with
    | missing =>
      obtain ⟨e, he⟩ := outcome_of_unsettled hcommands hunsettled rest hrest
      have hnone : rule.entry? ⟨key, .missing⟩ = none := entry?_of_text?_none rfl
      exact .refused e (fun entry h => nomatch hnone.symm.trans h) ((hbegin rest).trans he)
    | next text =>
      by_cases hplain : ArgumentForm.of text = .plain
      · have hvalue : rule.outcome (text :: rest) ⟨given, some (option, none)⟩
            = rule.outcome rest ⟨given, some (option, some text)⟩ := outcome_value hplain rfl rest
        rcases settle_cases (f := ⟨key, .next text⟩) hoption (if_pos hplain) given with
          ⟨entry, hentry, hnew, hsettle⟩ | ⟨hentry, error, hsettle⟩
        · exact .accepted _ hentry hnew hsettle ((hbegin _).trans hvalue)
        · obtain ⟨e, he⟩ := outcome_of_unsettled hcommands hsettle rest hrest
          exact .refused e hentry (((hbegin _).trans hvalue).trans he)
      · obtain ⟨e, he⟩ := outcome_of_unsettled hcommands hunsettled (text :: rest)
          (by rintro _ ⟨⟩; exact hplain)
        have hnone : rule.entry? ⟨key, .next text⟩ = none := entry?_of_text?_none (if_neg hplain)
        exact .refused e (fun entry h => nomatch hnone.symm.trans h) ((hbegin _).trans he)
    | after text =>
      have htake := outcome_after hcommands hoption hstate text rest
      rcases settle_cases (f := ⟨key, .after text⟩) hoption rfl given with
        ⟨entry, hentry, hnew, hsettle⟩ | ⟨hentry, error, hsettle⟩
      · rw [hsettle] at htake
        exact .accepted ⟨given ++ [entry], none⟩ hentry hnew rfl htake
      · rw [hsettle] at htake
        exact .refused error hentry htake

/-- **A command of flags ends well exactly if each of them is accepted by itself and
no name is given twice.** What it then has are the values in their order. -/
theorem outcome_eq_ok_iff (hcommands : rule.commands = []) (flags : List WrittenFlag)
    (state : OptionState) (given : List (String × String))
    (hgiven : (given.map Prod.fst).Nodup) (hstate : state.settle = .ok ⟨given, none⟩)
    (final : List (String × String)) :
    rule.outcome (flags.flatMap WrittenFlag.arguments) state = .ok final ↔
      ∃ entries, flags.map rule.entry? = entries.map some ∧ final = given ++ entries ∧
        (final.map Prod.fst).Nodup := by
  induction flags generalizing state given with
  | nil =>
    rw [List.flatMap_nil, outcome_nil, hstate]
    constructor
    · rintro ⟨⟩
      exact ⟨[], rfl, (List.append_nil _).symm, hgiven⟩
    · rintro ⟨entries, hentries, rfl, -⟩
      obtain rfl := List.map_eq_nil_iff.mp hentries.symm
      rw [List.append_nil]
      rfl
  | cons f flags ih =>
    rw [List.flatMap_cons]
    -- among the entries that are looked for, the first is the one of this flag
    have hcons : ∀ entries, (f :: flags).map rule.entry? = entries.map some ↔
        ∃ entry rest, entries = entry :: rest ∧ rule.entry? f = some entry ∧
          flags.map rule.entry? = rest.map some := by
      intro entries
      rw [List.map_cons, eq_comm, List.map_eq_cons_iff]
      constructor
      · rintro ⟨entry, rest, rfl, hentry, hrest⟩
        exact ⟨entry, rest, rfl, hentry.symm, hrest.symm⟩
      · rintro ⟨entry, rest, rfl, hentry, hrest⟩
        exact ⟨entry, rest, rfl, hentry.symm, hrest.symm⟩
    rcases step hcommands hstate f form_of_mem_head? with
      ⟨next, hentry, hnew, hnext, hended⟩ | ⟨error, hentry, hended⟩
    · rw [hended, ih next _ (nodup_concat hnew hgiven _) hnext]
      constructor
      · rintro ⟨rest, hrest, rfl, hnodup⟩
        exact ⟨_ :: rest, (hcons _).mpr ⟨_, rest, rfl, hentry, hrest⟩,
          (List.append_cons _ _ _).symm, hnodup⟩
      · rintro ⟨entries, hentries, rfl, hnodup⟩
        obtain ⟨entry, rest, rfl, hentry', hrest⟩ := (hcons _).mp hentries
        obtain rfl := Option.some.inj (hentry.symm.trans hentry')
        exact ⟨rest, hrest, List.append_cons _ _ _, hnodup⟩
    · rw [hended]
      refine ⟨nofun, ?_⟩
      rintro ⟨entries, hentries, rfl, hnodup⟩
      obtain ⟨entry, rest, rfl, hentry', -⟩ := (hcons _).mp hentries
      refine absurd (lookup_eq_none_iff_not_mem.mpr fun hmem => ?_) (hentry entry hentry')
      rw [List.map_append, List.nodup_append] at hnodup
      exact hnodup.2.2 _ hmem _ List.mem_cons_self rfl

end CommandRule

end Academy
