import Academy.CommandLine.Invocation
import Academy.Files.Dataset
import Academy.Generation.Dataset
import Academy.Settings.Load

/-!
# Running commands

What each command does on a host. Options of the command line count more
than settings. A failure is told together with what was about to be done.
-/

namespace Academy

/-- **Why a command fails.** -/
structure RunFailure where
  /-- What was about to be done. -/
  context : String
  /-- Why it could not be done. -/
  cause : Failure

/-- What is written to the error output about a failed command. -/
def RunFailure.text (failure : RunFailure) : String :=
  "Error: " ++ failure.context ++ "\n\nCaused by:\n    " ++ failure.cause.message ++ "\n"

variable {m : Type → Type} [Monad m] [Host m] {α : Type}

/-- Does something under a heading for the case that it fails. -/
def inContext (context : String) (action : ExceptT Failure m α) : ExceptT RunFailure m α :=
  ExceptT.mk do
    match ← action.run with
    | .ok a => pure (.ok a)
    | .error cause => pure (.error ⟨context, cause⟩)

/-- Prints a line. -/
def printLine (line : String) : m Unit :=
  Host.print (line ++ "\n")

/-- A line of hyphens. -/
def ruleLine (width : Nat) : String :=
  String.ofList (List.replicate width '-')

/-! ## Making a dataset -/

/-- The words that a run draws from: those of the seed, or some that nobody
can foresee. -/
def wordsOf : Option UInt64 → m WordStream
  | some seed => pure (.ofSeed seed)
  | none => Host.freshWords

/-- **Makes a dataset** with identifiers and dates of the host. -/
def drawDataset (counts : Counts) (words : WordStream) :
    ExceptT Failure m (Dataset Identifier Instant) := do
  let now ← ExceptT.lift Host.now
  let source ← ExceptT.lift Host.identifiers
  match ((Dataset.draw memoryLimit counts now.timeline source.identifier).readFrom words).1 with
  | .error error => throw (.ofDraw error)
  | .ok dataset =>
    ExceptT.lift (Host.spend dataset.counts.total)
    pure dataset

/-- Makes a dataset, if its numbers of records can be met. -/
def drawValid (counts : Counts) (seed : Option UInt64) :
    ExceptT Failure m (Dataset Identifier Instant) := do
  match counts.validate with
  | .error error => throw (.counts error)
  | .ok () => drawDataset counts (← ExceptT.lift (wordsOf seed))

/-- Tells of a collection that has been written. -/
def Written.tell (written : Written) : m Unit :=
  printLine ("Wrote " ++ toString written.count ++ " documents to " ++ written.path)

/-- **Makes a dataset and writes it.** -/
def Settings.generate (settings : Settings) (output : Option Path) (seed : Option UInt64)
    (changes : CountChanges) : ExceptT RunFailure m (List Written) := do
  let dir := output.getD settings.outputDir
  let dataset ← inContext "初始化数据生成器失败"
    (drawValid (changes.apply settings.counts) (seed <|> settings.seed))
  let written ← inContext ("写出数据集失败: " ++ dir) (dataset.write dir Written.tell)
  ExceptT.lift (printLine ("All collections generated in: " ++ dir))
  pure written

/-! ## Checking a dataset -/

/-- The heading of a collection's number of records. -/
def Collection.heading : Collection → String
  | .categories => "分类数量"
  | .instructors => "讲师数量"
  | .students => "学员数量"
  | .courses => "课程数量"
  | .enrollments => "选课数量"
  | .reviews => "评价数量"
  | .payments => "支付数量"

/-- Prints how many records there are in a directory. -/
def printCounts (dir : Path) (counts : Counts) : m Unit := do
  printLine ("\n数据集: " ++ dir)
  printLine (ruleLine 30)
  Collection.all.forM fun c => printLine (c.heading ++ ": " ++ toString (counts.get c))
  printLine (ruleLine 30)

/-- The failure of a report that is not clean. -/
def IntegrityReport.requireClean (report : IntegrityReport Identifier) : ExceptT Failure m Unit :=
  if report.isClean then pure () else throw (.integrity report.violations)

/-- **Reads a dataset and checks it.** -/
def Settings.verify (settings : Settings) (input : Option Path) : ExceptT RunFailure m Counts := do
  let dir := input.getD settings.outputDir
  let dataset ← inContext ("读取数据集失败: " ++ dir) (Dataset.read dir)
  let report := dataset.check
  ExceptT.lift (printCounts dir dataset.counts)
  inContext ("数据集校验失败: " ++ dir) report.requireClean
  ExceptT.lift (printLine ("校验通过: 共检查 " ++ toString report.checked ++ " 条引用记录"))
  pure dataset.counts

/-! ## Showing the catalog -/

/-- A text filled up with spaces at its end. -/
def padEnd (width : Nat) (s : String) : String :=
  s ++ String.ofList (List.replicate (width - s.length) ' ')

/-- A text filled up with spaces at its beginning. -/
def padStart (width : Nat) (s : String) : String :=
  String.ofList (List.replicate (width - s.length) ' ') ++ s

/-- The line of a category of the catalog. -/
def CategoryTemplate.line (category : CategoryTemplate) : String :=
  let instructors := Catalog.instructors.filter (·.specialty = category.name)
  "  " ++ padEnd 22 category.name ++
    " 课程模板 " ++ padStart 2 (toString (Catalog.coursesOf category.name).length) ++
    "  讲师 " ++ padStart 2 (toString instructors.length) ++ "  " ++ category.description

/-- **Prints what the catalog has.** -/
def printCatalog : m Unit := do
  printLine "\n模板目录:"
  printLine (ruleLine 60)
  Catalog.categories.forM fun category => printLine category.line
  printLine (ruleLine 60)

/-! ## The program -/

/-- **How a run ends.** -/
structure Ending where
  /-- The exit code. -/
  code : UInt32
  /-- What is written to the error output. -/
  complaint : String
deriving DecidableEq

/-- Runs a command. -/
def Command.run (settings : Settings) : Command → ExceptT RunFailure m Unit
  | .generate output seed counts => do
    let _ ← settings.generate output seed counts
    pure ()
  | .verify input => do
    let _ ← settings.verify input
    pure ()
  | .catalog => ExceptT.lift printCatalog

/-- Runs what the arguments ask for. -/
def Invocation.run (invocation : Invocation) : ExceptT RunFailure m Unit := do
  let settings ← inContext "加载配置失败" (Settings.load invocation.config)
  invocation.command.run settings

/-- How the program is used. -/
def usage : String :=
  "教育平台演示数据生成工具\n\n" ++
  "Usage: edu-seed [OPTIONS] <COMMAND>\n\n" ++
  "Commands:\n" ++
  "  generate  生成数据集并写入输出目录\n" ++
  "            -o, --output <OUTPUT>  -s, --seed <SEED>  --categories <N>  --instructors <N>\n" ++
  "            --students <N>  --courses <N>  --enrollments <N>  --reviews <N>  --payments <N>\n" ++
  "  verify    重新加载输出文件并检查引用一致性\n" ++
  "            -i, --input <INPUT>\n" ++
  "  catalog   列出模板目录中的分类\n" ++
  "  help      Print this message\n\n" ++
  "Options:\n" ++
  "  -l, --log-level <LOG_LEVEL>  [default: info]\n" ++
  "  -c, --config <CONFIG>\n" ++
  "  -h, --help\n" ++
  "  -V, --version\n"

/-- The version of the program. -/
def programVersion : String := "0.1.0"

/-- Ends a run whose arguments do not lead to a command. -/
def UsageError.finish : UsageError → m Ending
  | .help => do
    Host.print usage
    pure ⟨0, ""⟩
  | .version command => do
    printLine (command ++ " " ++ programVersion)
    pure ⟨0, ""⟩
  | _ => pure ⟨2, usage⟩

/-- How a run with a failure ends. Where it is given up, an empty line comes
before what is said. -/
def RunFailure.ending (failure : RunFailure) : Ending :=
  if failure.cause.givesUp then ⟨101, "\n" ++ failure.cause.message ++ "\n"⟩
  else ⟨1, failure.text⟩

/-- **Runs the program** with some arguments. -/
def runProgram (arguments : List String) : m Ending := do
  match Invocation.ofArguments arguments with
  | .error error => error.finish
  | .ok invocation =>
    match ← invocation.run.run with
    | .ok () => pure ⟨0, ""⟩
    | .error failure => pure failure.ending

end Academy
