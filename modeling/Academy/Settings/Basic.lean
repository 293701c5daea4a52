import Academy.Counts
import Academy.Files.Path
import Academy.Settings.Environment
import Academy.Settings.Value

/-!
# Settings

What a run can be told beforehand: where the files go, which seed the
random words have, and how many records there are to be. There are three
layers, and a later one is laid over the earlier: what holds where nothing
is said, a file, and the environment. The numbers that come of this have
to be ones that can be met.
-/

namespace Academy

/-- **What a run is told.** -/
structure Settings where
  /-- Where the files go. -/
  outputDir : Path
  /-- The seed of the random words, if they are to be the same every time. -/
  seed : Option UInt64
  /-- How many records there are to be. -/
  counts : Counts
deriving DecidableEq

/-- **Why there are no settings.** -/
inductive SettingsError
  /-- The file cannot be read, or a value is not what it should be. -/
  | unreadable
  /-- The numbers of records cannot be met. -/
  | counts (error : CountsError)
  /-- There is no room for a list of settings. -/
  | memory
deriving DecidableEq

namespace Settings

/-- Where the files go if nothing else is said. -/
def standardDir : Path := "data/exported_extended_json"

/-- What holds where nothing is said. -/
def standard : Settings where
  outputDir := standardDir
  seed := none
  counts := .standard

/-! ## From values -/

/-- The number of a collection in a table, which is the standard one where
it is missing. -/
def countIn? (members : List (String × SettingValue)) (c : Collection) : Option Nat :=
  match members.lookup c.name with
  | some value => value.toNat?
  | none => some (Counts.standard.get c)

/-- The numbers of records in their order; those that are missing at the
end are the standard ones. -/
def countAt? (items : List SettingValue) (place : Nat) (c : Collection) : Option Nat :=
  match items[place]? with
  | some value => value.toNat?
  | none => some (Counts.standard.get c)

/-- **The numbers of records** of a value: a table by name, or a list in
order. -/
def countsOf? : SettingValue → Option Counts
  | .table members => do
    pure {
      categories := ← countIn? members .categories
      instructors := ← countIn? members .instructors
      students := ← countIn? members .students
      courses := ← countIn? members .courses
      enrollments := ← countIn? members .enrollments
      reviews := ← countIn? members .reviews
      payments := ← countIn? members .payments }
  | .list items => do
    pure {
      categories := ← countAt? items 0 .categories
      instructors := ← countAt? items 1 .instructors
      students := ← countAt? items 2 .students
      courses := ← countAt? items 3 .courses
      enrollments := ← countAt? items 4 .enrollments
      reviews := ← countAt? items 5 .reviews
      payments := ← countAt? items 6 .payments }
  | _ => none

/-- The seed of a value. -/
def seedOf? : SettingValue → Option (Option UInt64)
  | .nothing => some none
  | value => value.toNat?.map fun n => some (.ofNat n)

/-- **The settings of a table.** -/
def ofValue? (root : SettingValue) : Option Settings := do
  let members := root.members
  let outputDir ← match members.lookup "output_dir" with
    | some value => value.toText?
    | none => some standardDir
  let seed ← match members.lookup "seed" with
    | some value => seedOf? value
    | none => some none
  let counts ← match members.lookup "counts" with
    | some value => countsOf? value
    | none => some .standard
  pure { outputDir, seed, counts }

/-! ## Layers -/

/-- The layer that is below all others. -/
def ground : SettingValue :=
  .table [("output_dir", .text standardDir)]

/-- **The settings of a file and an environment**, if they can be met. -/
def ofLayers (file : List (String × SettingValue)) (env : Environment) :
    Except SettingsError Settings :=
  match (ground.setAll? file).bind (·.setAll? env.settings) with
  | none => .error .memory
  | some root =>
    match ofValue? root with
    | none => .error .unreadable
    | some settings =>
      match settings.counts.validate with
      | .ok () => .ok settings
      | .error error => .error (.counts error)

/-! ## As a record -/

/-- The fields of a record of settings. -/
def fields : List Field :=
  [.withDefault "output_dir" (.stringAs "path string") standardDir,
   .withDefault "seed" (Codec.natBelow UInt64.size "u64").nullable none,
   .withDefault "counts" Counts.codec .standard]

/-- **Settings as a record**, in which those that are missing are the
standard ones. -/
def codec : Codec Settings :=
  (Codec.record "SeedConfig" fields true).correspond
    (fun (outputDir, seed, counts, ()) => ⟨outputDir, seed.map UInt64.ofNat, counts⟩)
    (fun s => (s.outputDir, s.seed.map UInt64.toNat, s.counts, ()))

end Settings

end Academy
