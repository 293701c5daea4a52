/-!
# Options of a command

A command takes options, each with one value and at most once. An option
is written by its name, with the value after an equals sign or as the
next argument, or by its letter, with the value right behind, after an
equals sign, or as the next argument. An argument that begins with a
hyphen is never a value. Besides there are the flags for help and for the
version, which end everything as soon as they are met.

The value of an option is looked at when the next option begins or the
arguments end, so of two errors it is not always the first that is
reported: an option that does not exist is reported before the value of
the option before it.
-/

namespace Academy

/-- **Why arguments are refused**, or what is asked for instead of a run. -/
inductive UsageError
  /-- Help is asked for. -/
  | help
  /-- The version of a command is asked for. -/
  | version (command : String)
  /-- There is nothing to be done. -/
  | nothingAsked
  /-- There are options, but no command. -/
  | missingCommand
  /-- There is no such command. -/
  | unknownCommand
  /-- The argument is none that is expected. -/
  | unknownArgument
  /-- An option has no value, or an empty one where that cannot be. -/
  | missingValue
  /-- A value is none that is expected. -/
  | invalidValue
  /-- A flag has a value. -/
  | unexpectedValue
  /-- An option is there twice. -/
  | repeated
deriving DecidableEq, Repr

/-- **An option.** -/
structure OptionRule where
  /-- Its name. -/
  name : String
  /-- Its letter, if it has one. -/
  letter : Option Char
  /-- What is wrong with a value. -/
  fault : String → Option UsageError

/-- **A command.** -/
structure CommandRule where
  /-- Its name in full. -/
  name : String
  /-- Its options. -/
  options : List OptionRule
  /-- The commands that can follow. -/
  commands : List String

/-- **The options that have been met.** -/
structure OptionState where
  /-- The options with their values. -/
  given : List (String × String) := []
  /-- The option that is not finished, with its value if it has got one. -/
  pending : Option (OptionRule × Option String) := none

namespace OptionState

/-- Finishes the option that is not finished. -/
def settle (state : OptionState) : Except UsageError OptionState :=
  match state.pending with
  | none => .ok state
  | some (_, none) => .error .missingValue
  | some (option, some value) =>
    if (state.given.lookup option.name).isSome then .error .repeated
    else
      match option.fault value with
      | some error => .error error
      | none => .ok ⟨state.given ++ [(option.name, value)], none⟩

/-- Begins an option whose value is the next argument. -/
def begin (state : OptionState) (option : OptionRule) : Except UsageError OptionState := do
  let state ← state.settle
  pure { state with pending := some (option, none) }

/-- Takes an option with its value. -/
def take (state : OptionState) (option : OptionRule) (value : String) :
    Except UsageError OptionState := do
  let state ← state.settle
  settle { state with pending := some (option, some value) }

/-- Meets a flag that ends everything. -/
def finish (state : OptionState) (error : UsageError) : Except UsageError OptionState := do
  let _ ← state.settle
  throw error

end OptionState

/-- **What an argument looks like.** -/
inductive ArgumentForm
  /-- The end of the options. -/
  | escape
  /-- A name, with the value after an equals sign. -/
  | long (name : String) (value : Option String)
  /-- Letters. -/
  | short (letters : List Char)
  /-- Neither. -/
  | plain
deriving DecidableEq

/-- The form of an argument. The name before an equals sign may be empty, and
is then that of no option. -/
def ArgumentForm.of (argument : String) : ArgumentForm :=
  match argument.toList with
  | ['-', '-'] => .escape
  | '-' :: '-' :: s =>
    let name := String.ofList (s.takeWhile (· ≠ '='))
    match s.dropWhile (· ≠ '=') with
    | [] => .long name none
    | _ :: value => .long name (some (String.ofList value))
  | '-' :: c :: s => .short (c :: s)
  | _ => .plain

namespace CommandRule

/-- Meets a name. -/
def long (rule : CommandRule) (state : OptionState) (name : String) (value : Option String) :
    Except UsageError OptionState :=
  match rule.options.find? (·.name = name), value with
  | some option, some value => state.take option value
  | some option, none => state.begin option
  | none, value =>
    if name = "help" ∨ name = "version" then
      if value.isSome then .error .unexpectedValue
      else state.finish (if name = "help" then .help else .version rule.name)
    else .error .unknownArgument

/-- Meets letters: one of an option, or of a flag. -/
def short (rule : CommandRule) (state : OptionState) : List Char → Except UsageError OptionState
  | [] => .ok state
  | c :: s =>
    match rule.options.find? (·.letter = some c), s with
    | some option, [] => state.begin option
    | some option, '=' :: value => state.take option (String.ofList value)
    | some option, value => state.take option (String.ofList value)
    | none, _ =>
      if c = 'h' then state.finish .help
      else if c = 'V' then state.finish (.version rule.name)
      else .error .unknownArgument

/-- The error of an argument that is neither option nor value, after the end
of the options or not. -/
def stray (rule : CommandRule) (escaped : Bool) (argument : String) : UsageError :=
  if rule.commands.isEmpty || (escaped && rule.commands.contains argument) then .unknownArgument
  else .unknownCommand

/-- **Reads the arguments of a command**, up to the command that follows if
there is one. -/
def read (rule : CommandRule) : List String → OptionState →
    Except UsageError (OptionState × Option (String × List String))
  | [], state => .ok (state, none)
  | argument :: rest, state =>
    match state.pending, ArgumentForm.of argument with
    | some (option, none), .plain =>
      read rule rest { state with pending := some (option, some argument) }
    | _, form =>
      if (state.pending.all (·.2.isSome)) && rule.commands.contains argument then
        .ok (state, some (argument, rest))
      else
        match form with
        | .escape =>
          match rest with
          | [] => .ok (state, none)
          | argument :: _ => .error (rule.stray true argument)
        | .long name value => do read rule rest (← rule.long state name value)
        | .short letters => do read rule rest (← rule.short state letters)
        | .plain => .error (rule.stray false argument)

end CommandRule

end Academy
