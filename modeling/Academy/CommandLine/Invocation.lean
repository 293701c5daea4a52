import Academy.CommandLine.Options
import Academy.Counts
import Academy.Files.Path
import Academy.Text.Digits

/-!
# Invocations

What the arguments of the program ask for: one of its commands with its
options, where the settings are, and how much is logged.

The arguments of the command are read before the options of the program
itself are finished, so an error in them is reported first.
-/

namespace Academy

/-- **What is to be done.** -/
inductive Command
  /-- Make a dataset and write it. -/
  | generate (output : Option Path) (seed : Option UInt64) (counts : CountChanges)
  /-- Read a dataset and check it. -/
  | verify (input : Option Path)
  /-- Show what the catalog has. -/
  | catalog
deriving DecidableEq

/-- **What the arguments ask for.** -/
structure Invocation where
  /-- How much is logged. -/
  logLevel : String
  /-- Where the settings are. -/
  config : Option Path
  /-- What is to be done. -/
  command : Command
deriving DecidableEq

namespace OptionRule

/-- An option whose value is any text. -/
def text (name : String) (letter : Option Char) : OptionRule :=
  ⟨name, letter, fun _ => none⟩

/-- An option whose value is a path. -/
def path (name : String) (letter : Option Char) : OptionRule :=
  ⟨name, letter, fun value => if value.isEmpty then some .missingValue else none⟩

/-- An option whose value is a number of 64 bits. -/
def number (name : String) (letter : Option Char) : OptionRule :=
  ⟨name, letter, fun value =>
    if (natOfText? value.toList).isSome then none else some .invalidValue⟩

end OptionRule

namespace Invocation

/-! ## The commands -/

/-- The program itself. -/
def program : CommandRule where
  name := "edu-seed"
  options := [.text "log-level" (some 'l'), .path "config" (some 'c')]
  commands := ["generate", "verify", "catalog", "help"]

/-- The command that makes a dataset. -/
def generateRule : CommandRule where
  name := "edu-seed-generate"
  options := .path "output" (some 'o') :: .number "seed" (some 's') ::
    Collection.all.map fun c => .number c.name none
  commands := []

/-- The command that checks a dataset. -/
def verifyRule : CommandRule where
  name := "edu-seed-verify"
  options := [.path "input" (some 'i')]
  commands := []

/-- The command that shows the catalog. -/
def catalogRule : CommandRule where
  name := "edu-seed-catalog"
  options := []
  commands := []

/-! ## Reading -/

/-- The options of a command, of which nothing is left over. -/
def readOptions (rule : CommandRule) (arguments : List String) :
    Except UsageError (List (String × String)) := do
  let (state, _) ← rule.read arguments {}
  pure (← state.settle).given

/-- The number of an option. -/
def number? (given : List (String × String)) (name : String) : Option Nat :=
  (given.lookup name).bind fun value => natOfText? value.toList

/-- What is asked for when help with some commands is. -/
def helpWith : List String → UsageError
  | [] => .help
  | [command] => if program.commands.contains command then .help else .unknownCommand
  | _ => .unknownCommand

/-- **The command of a name** with its arguments. -/
def readCommand (name : String) (arguments : List String) : Except UsageError Command := do
  if name = "generate" then
    let given ← readOptions generateRule arguments
    pure (.generate (given.lookup "output") ((number? given "seed").map .ofNat)
      (.ofFn fun c => number? given c.name))
  else if name = "verify" then
    let given ← readOptions verifyRule arguments
    pure (.verify (given.lookup "input"))
  else if name = "catalog" then
    let _ ← readOptions catalogRule arguments
    pure .catalog
  else throw (helpWith arguments)

/-- **What the arguments of the program ask for.** -/
def ofArguments (arguments : List String) : Except UsageError Invocation := do
  match ← program.read arguments {} with
  | (state, none) =>
    let state ← state.settle
    throw (if state.given.isEmpty then .nothingAsked else .missingCommand)
  | (state, some (name, rest)) =>
    let command ← readCommand name rest
    let given := (← state.settle).given
    pure {
      logLevel := (given.lookup "log-level").getD "info"
      config := given.lookup "config"
      command }

end Invocation

end Academy
