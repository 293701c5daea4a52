import Academy.Binary64.Basic
import Academy.Binary64.Decimal
import Academy.Calendar.Date
import Academy.Calendar.Instant
import Academy.Calendar.Text
import Academy.Catalog.Courses
import Academy.Catalog.Feedback
import Academy.Catalog.People
import Academy.Collection
import Academy.CommandLine.Invocation
import Academy.CommandLine.Options
import Academy.CommandLine.Run
import Academy.Counts
import Academy.Dataset
import Academy.Failure
import Academy.Files.Buffer
import Academy.Files.Dataset
import Academy.Files.Lines
import Academy.Files.Path
import Academy.Files.Tree
import Academy.Generation.Courses
import Academy.Generation.Dataset
import Academy.Generation.Gather
import Academy.Generation.Participation
import Academy.Generation.People
import Academy.Host
import Academy.Identifier
import Academy.Integrity
import Academy.Json.Basic
import Academy.Json.Codec
import Academy.Json.Extended
import Academy.Json.Numeral
import Academy.Json.Reading
import Academy.Main
import Academy.Proofs.Binary64.Nearest
import Academy.Proofs.Binary64.NearestPlaces
import Academy.Proofs.Binary64.Nonnegative
import Academy.Proofs.Binary64.Order
import Academy.Proofs.Binary64.Places
import Academy.Proofs.Binary64.Rounding
import Academy.Proofs.Binary64.Shortest
import Academy.Proofs.Binary64.Value
import Academy.Proofs.Binary64.Whole
import Academy.Proofs.Calendar.Date
import Academy.Proofs.Calendar.Millis
import Academy.Proofs.Calendar.Text
import Academy.Proofs.CommandLine.Acceptance
import Academy.Proofs.CommandLine.Environment
import Academy.Proofs.CommandLine.Flags
import Academy.Proofs.CommandLine.Generate
import Academy.Proofs.CommandLine.Verify
import Academy.Proofs.Files.Actions
import Academy.Proofs.Files.Buffer
import Academy.Proofs.Files.Dataset
import Academy.Proofs.Files.Directories
import Academy.Proofs.Files.Faults
import Academy.Proofs.Files.Interrupted
import Academy.Proofs.Files.Lines
import Academy.Proofs.Files.Rereading
import Academy.Proofs.Files.Tree
import Academy.Proofs.Generation.Addresses
import Academy.Proofs.Generation.Dataset
import Academy.Proofs.Generation.Discounts
import Academy.Proofs.Generation.Domains
import Academy.Proofs.Generation.Failing
import Academy.Proofs.Generation.FromCatalog
import Academy.Proofs.Generation.Gather
import Academy.Proofs.Generation.Growth
import Academy.Proofs.Generation.Outline
import Academy.Proofs.Generation.Pairing
import Academy.Proofs.Generation.Participation
import Academy.Proofs.Generation.Records
import Academy.Proofs.Generation.Renaming
import Academy.Proofs.Generation.Stages
import Academy.Proofs.Identifiers.Allocation
import Academy.Proofs.Identifiers.Text
import Academy.Proofs.Integrity.AnyOrder
import Academy.Proofs.Integrity.Generated
import Academy.Proofs.Integrity.Rules
import Academy.Proofs.Json.Codec
import Academy.Proofs.Json.DateForms
import Academy.Proofs.Json.Extended
import Academy.Proofs.Json.Legible
import Academy.Proofs.Json.Literals
import Academy.Proofs.Json.Numeral
import Academy.Proofs.Json.Places
import Academy.Proofs.Json.Reading
import Academy.Proofs.Json.Spelling
import Academy.Proofs.Json.Survival
import Academy.Proofs.Random.Draws
import Academy.Proofs.Random.UniformRange
import Academy.Proofs.Random.WeightedChoice
import Academy.Proofs.Records.Accepted
import Academy.Proofs.Records.Fields
import Academy.Proofs.Records.Members
import Academy.Proofs.Records.Refused
import Academy.Proofs.Records.Renaming
import Academy.Proofs.Records.Rereading
import Academy.Proofs.Records.Respelled
import Academy.Proofs.Records.Stored
import Academy.Proofs.Records.Tagged
import Academy.Proofs.Settings.Assignments
import Academy.Proofs.Settings.Document
import Academy.Proofs.Settings.Environment
import Academy.Proofs.Settings.Layers
import Academy.Proofs.Settings.Load
import Academy.Proofs.Settings.Precedence
import Academy.Proofs.Text.Ascii
import Academy.Proofs.Text.Digits
import Academy.Proofs.Text.FixedWidth
import Academy.Proofs.Text.Lowercase
import Academy.Proofs.Text.Words
import Academy.Proofs.Toml.Lines
import Academy.Random.Draw
import Academy.Random.UniformRange
import Academy.Random.WeightedChoice
import Academy.Random.WordStream
import Academy.Records.Courses
import Academy.Records.Participation
import Academy.Records.People
import Academy.Settings.Basic
import Academy.Settings.Environment
import Academy.Settings.Load
import Academy.Settings.Value
import Academy.Text.Digits
import Academy.Text.Lowercase
import Academy.Text.Quoted
import Academy.Text.Utf8
import Academy.Text.Words
import Academy.Toml.Basic
import Academy.Toml.Document
import Academy.Toml.Scalars
import Academy.Toml.Strings
