import ApiClient.Program

/-!
# The command

`main` reads the part of the file system that a run may look at, runs the program on it, and brings
the file system up to date with what the run left: the settings file, the source directory, and all
that is below the destination.
-/

namespace ApiClient.Main

/-! ## Reading the file system -/

/-- The absolute path of a location. -/
def pathOf (l : Location) : String :=
  "/" ++ "/".intercalate l

/-- The location of an absolute path, by its names alone. -/
def locationOf (path : String) : Location :=
  (Disk.names path).foldl (fun l name => (Disk.step l name).toOption.getD l) []

/-- What is at a path. -/
def kindAt (path : String) : IO (Option IO.FS.FileType) := do
  try
    let path ← IO.FS.realPath path
    return some (← path.metadata).type
  catch _ => return none

/-- Adds an entry of the file system; of a directory all that is below it, if `deep`. Only files and
directories are seen. -/
partial def load (deep : Bool) (d : Disk) (l : Location) : IO Disk := do
  match ← kindAt (pathOf l) with
  | some .file => return d.put l (.file (← IO.FS.readBinFile (pathOf l)))
  | some .dir =>
    let mut d := if l.isEmpty then d else d.put l .directory
    if deep then
      for e in ← (← IO.FS.realPath (pathOf l)).readDir do
        match (← e.path.symlinkMetadata).type with
        | .file | .dir => d ← load deep d (l ++ [e.fileName])
        | _ => pure ()
    return d
  | _ => return d

/-- Adds an entry of the file system with the directories above it. -/
def loadPath (d : Disk) (path : String) : IO Disk := do
  let l := locationOf path
  let mut d := d
  for n in List.range l.length do
    d ← load false d (l.take n)
  load true d l

/-- The paths that a command may look at. -/
def pathsOf (s : Path.Surroundings) (d : Disk) : CommandLine.Command → List String
  | .generate input => inputPaths input ++ optionPaths input
  | .inspect input => inputPaths input ++ (optionPaths input).take 1
  | .completions _ => []
where
  /-- The path of the settings file. -/
  inputPaths (input : CommandLine.Input) : List String :=
    (input.settings.map (Path.join s.current)).toList
  /-- The source and the destination. -/
  optionPaths (input : CommandLine.Input) : List String :=
    match input.options s d with
    | .ok o => [o.sourceDirectory s, o.destinationDirectory s]
    | .error _ => []

/-- The disk on which a run works. The settings file is read first, since it names the others. -/
def loadFor (s : Path.Surroundings) (words : List String) : IO Disk := do
  match CommandLine.parse words with
  | .error _ => return .empty
  | .ok i =>
    let settings ← (pathsOf s .empty i.command).foldlM loadPath .empty
    (pathsOf s settings i.command).foldlM loadPath .empty

/-! ## Writing the file system -/

/-- Writes a file beside its place and moves it there. -/
def replaceFile (path : String) (content : ByteArray) : IO Unit := do
  let temporary := Output.temporaryPath path
  IO.FS.writeBinFile temporary content
  IO.FS.rename temporary path

/-- Makes the changes that lead from one disk to another. -/
def writeBack (before after : Disk) : IO Unit := do
  for (l, n) in after.entries.mergeSort fun a b => a.1.length ≤ b.1.length do
    unless before.get? l == some n do
      match n with
      | .directory => IO.FS.createDirAll (pathOf l)
      | .file content => replaceFile (pathOf l) content
  for (l, _) in before.entries do
    if (after.get? l).isNone then IO.FS.removeFile (pathOf l)

/-! ## The run -/

/-- The home and the current directory. -/
def surroundings : IO Path.Surroundings := do
  return ⟨(← IO.getEnv "HOME").getD "/", (← IO.currentDir).toString⟩

/-- The seconds between two readings of the clock, in nanoseconds. -/
def secondsBetween (start stop : Nat) : Binary64 :=
  (Binary64.round false (stop - start) (Nat.pow 10 9)).getD (.zero false)

/-- Results may be coloured. -/
def wantsColor : IO Bool := do
  return (← (← IO.getStdout).isTty) && (← IO.getEnv "NO_COLOR").isNone

end ApiClient.Main

open ApiClient in
/-- Runs the program. -/
def main (words : List String) : IO UInt32 := do
  let start ← IO.monoNanosNow
  let s ← Main.surroundings
  let before ← Main.loadFor s words
  let (outcome, after) := Program.run s words before
  Main.writeBack before after
  let seconds := Main.secondsBetween start (← IO.monoNanosNow)
  IO.print (outcome.output (← Main.wantsColor) seconds)
  IO.eprint outcome.complaint
  return outcome.exitCode.toUInt32
