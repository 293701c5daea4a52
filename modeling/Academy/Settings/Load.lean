import Academy.Failure
import Academy.Host
import Academy.Json.Reading
import Academy.Settings.Basic
import Academy.Text.Utf8
import Academy.Toml.Document

/-!
# Loading settings

The settings of a run: those of the file that is named, if one is, and of
the environment. A file that is named has to be there. Its format is told
by its extension; bytes that are no text are replaced, and a byte order
mark at the beginning is passed over.
-/

namespace Academy

/-! ## Files of settings -/

/-- **A format of settings.** -/
inductive SettingsFormat
  | toml
  | json
deriving DecidableEq, Repr

namespace SettingsFormat

/-- The formats in the order in which their files are looked for. -/
def all : List SettingsFormat :=
  [toml, json]

/-- The extension of a format's files. -/
def extension : SettingsFormat → String
  | toml => "toml"
  | json => "json"

/-- The format of a file, by its extension. -/
def ofPath? (path : Path) : Option SettingsFormat :=
  all.find? fun format => path.extension? = some format.extension

/-- The settings of a text. -/
def membersOf? (s : List Char) : SettingsFormat → Option (List (String × SettingValue))
  | toml => (Toml.ofText? s).map SettingValue.ofTomlMembers
  | json =>
    match Json.ofText s with
    | .ok (.object members) => some (SettingValue.ofJsonMembers members)
    | _ => none

end SettingsFormat

/-- Bytes without a byte order mark at the beginning. -/
def withoutByteOrderMark : List UInt8 → List UInt8
  | 0xEF :: 0xBB :: 0xBF :: bytes => bytes
  | bytes => bytes

/-- **The settings of a file's bytes.** -/
def SettingsFormat.ofBytes? (format : SettingsFormat) (bytes : List UInt8) :
    Option (List (String × SettingValue)) :=
  format.membersOf? (decodeReplacing (withoutByteOrderMark bytes))

/-- What is put in the place of an extension that is still to be chosen. -/
def openExtension : String := "placeholder"

/-- A name with a place for an extension: behind the extension that it has,
as it is written, or at its end. -/
def withOpenExtension (name : Path) : Path :=
  if name.extension?.isSome then name ++ "." ++ openExtension
  else name.withExtension openExtension

/-- **The files that settings of the given name can be in**, the first that
is there counts: the name itself, or the name with an extension. -/
def settingsFiles (name : Path) : List Path :=
  name :: SettingsFormat.all.map fun format =>
    (withOpenExtension name).withExtension format.extension

/-! ## Loading -/

variable {m : Type → Type} [Monad m] [Host m]

/-- The first of some paths at which there is a file. -/
def firstFile? : List Path → m (Option Path)
  | [] => pure none
  | path :: paths => do
    if ← Host.isFile path then pure (some path) else firstFile? paths

/-- The settings of the file of the given name. -/
def settingsInFile (name : Path) : ExceptT Failure m (List (String × SettingValue)) := do
  match ← ExceptT.lift (firstFile? (settingsFiles name)) with
  | none => throw .settings
  | some path =>
    match SettingsFormat.ofPath? path, ← ExceptT.lift (Host.readFile path) with
    | some format, .ok bytes =>
      match format.ofBytes? bytes with
      | some members => pure members
      | none => throw .settings
    | _, _ => throw .settings

/-- **Loads the settings.** -/
def Settings.load (file : Option Path) : ExceptT Failure m Settings := do
  let members ← match file with
    | some name => settingsInFile name
    | none => pure []
  match Settings.ofLayers members (← ExceptT.lift Host.environment) with
  | .ok settings => pure settings
  | .error error => throw (.ofSettings error)

end Academy
