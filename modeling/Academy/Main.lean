import Academy.CommandLine.Run

/-!
# The program

The system as a host, and the entry point. The variables of the
environment and the clock are read from the files in which the system
shows them.
-/

namespace Academy

namespace Native

/-- The fault that the system reports. -/
def fault : IO.Error → FileFault
  | .noFileOrDirectory .. => .notFound
  | .alreadyExists .. => .alreadyExists
  | .resourceExhausted .. => .storageFull
  | _ => .other

/-- Tries to use a file. -/
def attempt {α : Type} (action : IO α) : IO (Except FileFault α) := do
  try
    pure (.ok (← action))
  catch error =>
    pure (.error (fault error))

/-- Tries to use what a path leads to. -/
def attemptAt {α : Type} (path : Path) (action : IO α) : IO (Except FileFault α) :=
  match path.fault? with
  | some fault => pure (.error fault)
  | none => attempt action

/-- The bytes of a file of the system; none where there is no such file. -/
def systemFile (path : String) : IO (List UInt8) := do
  match ← attempt (IO.FS.readBinFile path) with
  | .ok bytes => pure bytes.toList
  | .error _ => pure []

/-- The texts between the zeros of some bytes. -/
def betweenZeros (bytes : List UInt8) : List String :=
  (wordsBetween (· = Char.ofNat 0) (decodeReplacing bytes)).map String.ofList

/-- A variable of the environment by its text. -/
def variableOf (text : String) : String × String :=
  let s := text.toList
  (String.ofList (s.takeWhile (· ≠ '=')), String.ofList ((s.dropWhile (· ≠ '=')).drop 1))

/-- The hundredths of a second that a text of seconds begins with. -/
def hundredths (s : List Char) : Nat :=
  let (whole, rest) := splitDigits s
  let (fraction, _) := splitDigits (rest.drop 1)
  digitsValue (whole ++ (fraction ++ ['0', '0']).take 2)

/-- What the clock of the system shows: when it was started, and how long
ago that was. -/
def clock : IO Instant := do
  let lines := wordsBetween (· = '\n') (decodeReplacing (← systemFile "/proc/stat"))
  let start := lines.findSome? fun line =>
    match wordsBetween (· = ' ') line with
    | [name, seconds] =>
      if name = ['b', 't', 'i', 'm', 'e'] then some (digitsValue seconds) else none
    | _ => none
  let up := hundredths (decodeReplacing (← systemFile "/proc/uptime"))
  let millis : Int := (start.getD 0 * 1000 + up * 10 : Nat)
  pure ((Instant.ofMillis? millis).getD default)

/-- A word of four bytes. -/
def wordAt (bytes : ByteArray) (place : Nat) : UInt32 :=
  (List.range 4).foldr (fun n word => word * 256 + (bytes[place + n]?.getD 0).toUInt32) 0

/-- A source of identifiers that begins now. -/
def freshSource : IO Identifier.Source := do
  let bytes ← IO.getRandomBytes 12
  let now ← clock
  pure {
    process := .ofNat 40 ((wordAt bytes 0).toNat * 256 + (wordAt bytes 4).toNat % 256)
    start := wordAt bytes 8 % 16777216
    clock := fun _ => .ofNat now.seconds.toNat }

/-- A stream of words that nobody can foresee. -/
def freshStream : IO WordStream := do
  let bytes ← IO.getRandomBytes 32
  let row := fun place : Nat => (⟨wordAt bytes place, wordAt bytes (place + 4),
    wordAt bytes (place + 8), wordAt bytes (place + 12)⟩ : WordRow)
  pure (.ofKey (row 0) (row 16))

instance : Host IO where
  environment := do pure ((betweenZeros (← systemFile "/proc/self/environ")).map variableOf)
  now := clock
  freshWords := freshStream
  identifiers := freshSource
  spend _ := pure ()
  createDirectories path :=
    if path.isEmpty then pure (.ok ()) else attemptAt path (IO.FS.createDirAll path)
  createFile path := attemptAt path (IO.FS.writeBinFile path .empty)
  appendFile path bytes := do
    let append : IO Unit := IO.FS.withFile path .append fun file => do
      file.write ⟨bytes.toArray⟩
      file.flush
    match ← attemptAt path append with
    | .ok () => pure (.ok ())
    -- how many of the bytes are kept is not told
    | .error fault => pure (.error ⟨[], fault⟩)
  readFile path := do
    match ← attemptAt path (IO.FS.readBinFile path) with
    | .ok bytes => pure (.ok bytes.toList)
    | .error fault => pure (.error fault)
  isFile path := do
    match ← attemptAt path (IO.FS.readBinFile path) with
    | .ok _ => pure true
    | .error _ => pure false
  print text := IO.print text

end Native

end Academy

/-- Runs the program on the system. -/
def main (arguments : List String) : IO UInt32 := do
  let ending ← Academy.runProgram arguments
  if !ending.complaint.isEmpty then
    IO.eprint ending.complaint
  pure ending.code
