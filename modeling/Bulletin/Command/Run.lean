import Bulletin.Batch.Progress
import Bulletin.Command.Diagnostics
import Bulletin.Command.Usage
import Bulletin.ConfigFile
import Bulletin.Settings

/-! # Runs of the command

A run reads the words of its command line, gathers the settings, and converts one document or a
directory of them. It ends with an exit code, with what it has printed, and with the files that it
has written. Records are shown before the message that ends a failed run, and are added to a log
file if there is one. -/

namespace Bulletin.Command

/-- What a run finds around it besides the files. -/
structure Surroundings where
  stdin : List UInt8 := []
  home : Path
  configPath : Option String := none
  isTerminal : Option Bool := none
  clock : String
  tokenizer : Tokenizer := ownTokenizer

/-- What a run comes to: an exit code, and the texts on the two streams. -/
structure Outcome where
  exitCode : Nat := 0
  out : String := ""
  err : String := ""
  deriving Inhabited

/-- The exit code for settings that are refused. -/
def refusedCode : Nat := 3

/-- The outcome of a run that ends with a message after what it has printed. -/
def Outcome.failed (exitCode : Nat) (message : String) (out : String := "") : Outcome :=
  ⟨exitCode, out, s!"Error: {message}\n"⟩

/-- The outcome of a run that a failure ends. -/
def Outcome.ofFailure (f : Failure) (out : String := "") : Outcome :=
  if f.kind.isLibrary then .failed f.exitCode f.message out
  else .failed 1 s!"Unexpected error: {f.message}" out

/-- The outcome of a run whose command line is not read to its end. -/
def Outcome.ofStop : Stop → Outcome
  | .help => { out := unlines help }
  | .version => { out := unlines [versionLine] }
  | .fault f => ⟨2, "", unlines (usage ++ [s!"{commandName}: error: {f.message}"])⟩

/-! ### Settings -/

/-- The settings that the command line puts over those of a configuration. -/
def Arguments.overrides (a : Arguments) : Table → Fields
  | .markdown => if a.frontMatter then [("parse_frontmatter", .bool true)] else []
  | .tree => []
  | .page =>
    (a.headingSize.elim [] fun n => [("heading_size", .int n)]) ++
      a.monospaceFont.elim [] fun s => [("monospace_font", .str s)]

/-- The settings of a run. -/
def Arguments.settings (a : Arguments) (around : Surroundings) : Job Settings := do
  let config ←
    if a.noConfig then pure [] else ConfigFile.choose [a.config, around.configPath] around.home
  Job.ofLogged (Settings.ofConfig config a.overrides)

/-! ### One document -/

/-- The options of the reader for a format. -/
def readerOptions (s : Settings) (format : String) : Options :=
  if format = Format.tree.name then .tree s.tree else .markdown s.markdown

/-- The document of an input. -/
def readSource (a : Arguments) (s : Settings) (around : Surroundings) (input : Input) :
    Job Mdast.Node := do
  let format := if a.inputFormat = "auto" then (Format.detect input).name else a.inputFormat
  Job.report .debug .command s!"Input format resolved to {format}"
  parse input (.str format) (some (readerOptions s format)) around.tokenizer

/-- The page of a document, or the document as JSON if that is asked for. -/
def contentOf (a : Arguments) (s : Settings) (document : Mdast.Node) : Job String :=
  if a.dumpTree then Job.ofLogged (Logged.lift (dumpTree document (some 2)))
  else renderPage s.page document

/-- Sends a text to the output file, or gives it back to be printed if none is named. -/
def emit (a : Arguments) (content : String) : Job String :=
  match a.output.filter (· ≠ "") with
  | none => return content ++ "\n"
  | some p => do
    Files.writeText content (.ofString p)
    Job.report .info .command s!"Wrote {p}"
    return ""

/-- The conversion of one input, with what is printed. -/
def convertSingle (a : Arguments) (s : Settings) (around : Surroundings) (input : Input) :
    Job String := do
  emit a (← contentOf a s (← readSource a s around input))

/-- The text on the standard input. -/
def readStdin (around : Surroundings) : Except Failure Input := do
  return .text (.ofList (← ConfigFile.decode around.stdin))

/-! ### A directory -/

/-- The plan of a batch. -/
def planOf (a : Arguments) (s : Settings) (around : Surroundings) (directory : Path) :
    Batch.Plan where
  input := directory.toString
  output := .ofString ((a.output.filter (· ≠ "")).getD ".")
  workers := a.parallel
  skipFailures := a.skipErrors
  reader := some (.markdown s.markdown)
  renderer := some (.page s.page)
  tokenizer := around.tokenizer

/-- What is printed of a batch. -/
def progress (around : Surroundings) (directory : Path) (results : List Batch.Result) : String :=
  let showStyles := Console.showsStyles around.isTerminal
  String.join (((Batch.headerLine directory) :: results.map Batch.resultLine).map
    (Console.print showStyles))

/-- The gravest exit code among the results of a batch. -/
def exitCodeOf (results : List Batch.Result) : Nat :=
  (results.map fun r => r.failure.elim 0 (·.exitCode)).foldl max 0

/-- Reports the number of failed results, if there are any. -/
def reportFailures (results : List Batch.Result) : Job Unit :=
  let failed := (results.filter (·.failure.isSome)).length
  if failed = 0 then return ()
  else Job.report .warning .command s!"{failed} of {results.length} file(s) failed to convert"

/-- The conversion of a directory. -/
def convertDirectory (a : Arguments) (s : Settings) (around : Surroundings) (directory : Path) :
    Job Outcome := do
  if a.dumpTree then
    return .failed refusedCode "--dump-ast cannot be used with a directory input"
  else if a.inputFormat = Format.tree.name then
    return .failed refusedCode "directory input only converts Markdown files"
  else
    let report ← Batch.run (planOf a s around directory)
    let out := progress around directory report.results
    match report.failure with
    | some f => return .ofFailure f out
    | none =>
      reportFailures report.results
      return { exitCode := exitCodeOf report.results, out }

/-! ### The whole run -/

/-- The conversion that the settings ask for. -/
def convertAll (a : Arguments) (s : Settings) (around : Surroundings) : Job Outcome := do
  match a.input with
  | none =>
    let input ← Job.ofLogged (Logged.lift (readStdin around))
    return { out := ← convertSingle a s around input }
  | some p =>
    let path := Path.ofString p
    match ← Files.look path with
    | some .directory => convertDirectory a s around path
    | _ => return { out := ← convertSingle a s around (.file path) }

/-- The settings and then the conversion; settings that are refused end the run, and a failure of
the conversion too. A failure of another kind in a configuration is not caught. -/
def work (a : Arguments) (around : Surroundings) : Job Outcome := do
  match ← Job.attempt (a.settings around) with
  | .error f =>
    if f.kind = .argument then return .failed refusedCode f.message
    else if f.kind.isLibrary then return .failed f.exitCode f.message
    else throw f
  | .ok s =>
    match ← Job.attempt (convertAll a s around) with
    | .ok outcome => return outcome
    | .error f => return .ofFailure f

/-- Opens the log file, if one is named: it is made if it is missing, and if that fails there is a
warning and no log file. -/
def openLog (a : Arguments) : Job (Option Path) := do
  match a.logFile.filter (· ≠ "") with
  | none => return none
  | some name =>
    let w ← get
    let given := Path.ofString name
    let start := if given.isAbsolute then [] else w.here
    let path := ConfigFile.pathOf (Store.normal start given.names)
    match w.store.append w.here path [] with
    | .ok store =>
      set { w with store }
      Job.report .debug .root s!"Logging to file: {name}"
      return some path
    | .error fault =>
      let why := fault.message (Text.quoted path.toString)
      Job.report .warning .root s!"Could not open log file {name}: {why}"
      return none

/-- Adds a text to the log file. -/
def addToLog (path : Path) (text : String) : Job Unit :=
  modify fun w =>
    match w.store.append w.here path (encodeText text) with
    | .ok store => { w with store }
    | .error _ => w

/-- The work of a run with its records, which are shown and added to the log file; the records
from before the run are kept apart. -/
def recorded (a : Arguments) (around : Surroundings) : Job Outcome := do
  let before := (← get).log
  modify fun w => { w with log := [] }
  let logPath ← openLog a
  let result ← Job.attempt (work a around)
  let lines := recordLines a around.clock (← get).log
  logPath.forM fun p => addToLog p lines
  modify fun w => { w with log := before }
  match result with
  | .ok outcome => return { outcome with err := lines ++ outcome.err }
  | .error f => throw f

/-- The run of a command line. -/
def run (around : Surroundings) (words : List String) : Job Outcome :=
  match Arguments.ofList words with
  | .error stop => return .ofStop stop
  | .ok a => if a.about then return { out := unlines about } else recorded a around

end Bulletin.Command
