import Bulletin.Command.Run
import Std.Time

/-! # The program

The program takes a picture of the files at which a run of the command may look, does the run on it,
and brings to the disk what the run has written. What is read and written is decided by the run. -/

namespace Bulletin.Program

open Store (addressOf)

/-! ### Where a run looks -/

/-- The addresses at which a configuration may be found, upward from a directory or in another. -/
def configAddresses (here home : Address) : List Address :=
  (ConfigFile.upward here ++ [home]).flatMap fun directory =>
    (ConfigFile.projectName :: ConfigFile.dedicatedNames).map fun name => directory ++ [name]

/-- The addresses of the files that a command line and its surroundings name. -/
def namedAddresses (a : Command.Arguments) (around : Command.Surroundings) (here : Address) :
    List Address :=
  [a.input, a.output, a.config, a.logFile, around.configPath].filterMap fun name =>
    name.map fun n => addressOf here (.ofString n)

/-- The sources among the names in the input directory. -/
def sourcesAmong (directory : Path) (names : List String) : List Path :=
  (names.map directory.child).filter Batch.hasSourceSuffix

/-- The addresses of sources, and of the pages that a batch makes of them. -/
def batchAddresses (a : Command.Arguments) (here : Address) (sources : List Path) :
    List Address :=
  let output := Path.ofString ((a.output.filter (· ≠ "")).getD ".")
  sources.flatMap fun p => [addressOf here p, addressOf here (Batch.outputPath p output)]

/-! ### The disk -/

/-- The written form of an address. -/
def written (a : Address) : String := (ConfigFile.pathOf a).toString

/-- Whether there is a directory at an address, if there is anything. -/
def isDirectory? (a : Address) : IO (Option Bool) := do
  match ← ((← IO.currentDir) / written a).metadata.toBaseIO with
  | .ok m => return some (m.type == .dir)
  | .error _ => return none

/-- A store in which a file may not be read. -/
def withhold (s : Store) (a : Address) : Store :=
  { s.set a (.file []) with
    bars := fun access b => access == .read && b == a || s.bars access b }

/-- A store with what stands at an address, and on the way to it. -/
def addFile (s : Store) (a : Address) : IO Store :=
  (ConfigFile.upward a).foldlM (fun s a => do
    match ← isDirectory? a with
    | none => return s
    | some true => return s.set a .directory
    | some false =>
      match ← (IO.FS.readBinFile (written a)).toBaseIO with
      | .ok bytes => return s.set a (.file bytes.toList)
      | .error _ => return withhold s a) s

/-- A store with the name of what stands at an address, but not its bytes. -/
def addName (s : Store) (a : Address) : IO Store := do
  match ← isDirectory? a with
  | none => return s
  | some true => return s.set a .directory
  | some false => return s.set a (.file [])

/-- The names in the directory at an address. -/
def namesIn (a : Address) : IO (List String) := do
  if (← isDirectory? a) = some true then
    return (← ((← IO.currentDir) / written a).readDir).toList.map (·.fileName)
  else return []

/-- The store in which a run is done. -/
def picture (a : Command.Arguments) (around : Command.Surroundings) (here : Address) :
    IO Store := do
  let directory := Path.ofString (a.input.getD "")
  let names ← if a.input.isSome then namesIn (addressOf here directory) else pure []
  let s ← (names.map fun n => addressOf here (directory.child n)).foldlM addName {}
  let files := here :: configAddresses here (addressOf here around.home) ++
    namedAddresses a around here ++ batchAddresses a here (sourcesAmong directory names)
  files.foldlM addFile s

/-- Brings what is new in a store to the disk. -/
def bring (before after : Store) : IO Unit :=
  after.entries.forM fun (a, e) => do
    if before.get? a ≠ some e then
      match e with
      | .directory => IO.FS.createDirAll (written a)
      | .file bytes => IO.FS.writeBinFile (written a) (.mk bytes.toArray)

/-! ### Runs -/

/-- What a run finds around it. -/
def surroundings (readsStdin : Bool) : IO Command.Surroundings := do
  let stdin ← if readsStdin then (← IO.getStdin).readBinToEnd else pure .empty
  return {
    stdin := stdin.toList
    home := .ofString ((← IO.getEnv "HOME").getD "/")
    configPath := ← IO.getEnv "MD2NEXUS_CONFIG"
    isTerminal := some (← (← IO.getStdout).isTty)
    clock := (← Std.Time.PlainDateTime.now).format "uuuu-MM-dd HH:mm:ss" }

/-- Does a run, and gives its exit code; a failure that nothing catches is shown by its name. -/
def perform (words : List String) (a : Command.Arguments) (readsStdin : Bool) : IO UInt32 := do
  let around ← surroundings readsStdin
  let here := (Path.ofString (← IO.currentDir).toString).names
  let before ← picture a around here
  let (result, after) := (Command.run around words).run { store := before, here }
  bring before after.store
  match result with
  | .ok outcome =>
    IO.print outcome.out
    IO.eprint outcome.err
    return outcome.exitCode.toUInt32
  | .error f =>
    IO.eprintln s!"{f.kind.name}: {f.message}"
    return 1

end Bulletin.Program

/-- Runs the command with the words of its command line. -/
def main (words : List String) : IO UInt32 :=
  match Bulletin.Command.Arguments.ofList words with
  | .ok a => Bulletin.Program.perform words a (a.input.isNone && !a.about)
  | .error _ => Bulletin.Program.perform words {} false
