import Bulletin.Text.Casing
import Bulletin.Text.Lines
import Bulletin.Value.Toml
import Bulletin.Value.Yaml
import Bulletin.Workspace

/-! # Configuration files

A configuration is read from a file in TOML, YAML or JSON, by the suffix of its name, or from the
table of this program in the file of a project. What reads a text in one of the formats can be
replaced, and a reader may fail on a text in another way than by refusing it. If no file is named, one
is looked for: from the directory where one works upward, then in the home directory, and in each
directory under the known names in their order. -/

namespace Bulletin.ConfigFile

/-- Why a file gives no configuration. -/
inductive Fault where
  | missing (path : Path)
  | notFile (path : Path)
  | unknownSuffix (suffix : String)
  | unreadable (what : String) (path : Path) (why : FileFault)
  | toml (path : Path) (why : Toml.Fault)
  | project (path : Path) (why : Toml.Fault)
  | yaml (path : Path) (why : Yaml.Fault)
  | json (path : Path) (why : Json.Error)
  | notTable (path : Path) (typeName : String)
  | notObject (typeName : String)
  | notMapping (typeName : String)

/-- The words for a fault. -/
def Fault.message : Fault → String
  | missing p => s!"Configuration file does not exist: {p}"
  | notFile p => s!"Configuration path is not a file: {p}"
  | unknownSuffix s => s!"Unsupported config file format: {s}. Use .toml, .yaml, or .json"
  | unreadable what p why => s!"Error reading {what} {p}: {why.message (Text.quoted p.toString)}"
  | toml p why => s!"Invalid TOML in config file {p}: {why.message}"
  | project p why => s!"Invalid TOML in pyproject.toml {p}: {why.message}"
  | yaml p why => s!"Invalid YAML in config file {p}: {why.message}"
  | json p why => s!"Invalid JSON in config file {p}: {why.message}"
  | notTable p t => s!"[tool.md2nexus] section in {p} must be a table, got {t}"
  | notObject t => s!"JSON config file must contain an object, got {t}"
  | notMapping t => s!"YAML config file must contain a mapping, got {t}"

/-- The failure of a fault. -/
def Fault.failure (f : Fault) : Failure := .argument f.message

/-! ### Readers -/

/-- Why a reader gives no value for a text: the text is not in its format, or the reading fails in
another way. -/
inductive Trouble (ε : Type) where
  | refused (why : ε)
  | broken (f : Failure)

/-- The failure for trouble with a text; that it is not in the format is a fault of the file. -/
def Trouble.failure {ε : Type} (fault : ε → Fault) : Trouble ε → Failure
  | refused why => (fault why).failure
  | broken f => f

/-- The trouble with a text that is not read as JSON: if it is JSON, its reader is broken. -/
def Trouble.ofJson (e : Json.Error) : Trouble Json.Error :=
  if e.fault.isMalformed then .refused e else .broken (.stated .value e.message [])

/-- The text of bytes, of which none is left out. -/
def decode (bytes : List UInt8) : Except Failure (List Char) :=
  (Text.decodeAll bytes).mapError (.undecoded bytes)

/-- The text of bytes that come piece by piece: a character that is missing its end is told apart
from what came before it. -/
def decodePieces (bytes : List UInt8) : Except Failure (List Char) :=
  (Text.decodeAll bytes).mapError fun stop =>
    .undecoded (if stop.left = 0 then bytes.drop (bytes.length - stop.begun) else bytes) stop

/-- The value that bytes write in YAML; they are decoded before the text is looked at. -/
def readYaml (bytes : List UInt8) : Except (Trouble Yaml.Fault) Value := do
  let text ← (decodePieces bytes).mapError .broken
  (Yaml.read (.ofList (Text.normalizeBreaks text))).mapError .refused

/-- The readers of the three formats. That of YAML takes bytes, for it may refuse what it has read
before it has read all. -/
structure Readers where
  toml : String → Except (Trouble Toml.Fault) Fields := fun s => (Toml.read s).mapError .refused
  yaml : List UInt8 → Except (Trouble Yaml.Fault) Value := readYaml
  json : String → Except (Trouble Json.Error) Value := fun s => (Json.read s).mapError .ofJson

/-- The configuration of a TOML document. -/
def ofToml (readers : Readers) (path : Path) (bytes : List UInt8) : Except Failure Fields := do
  let text ← decode bytes
  (readers.toml (.ofList text)).mapError (Trouble.failure (.toml path))

/-- The configuration in the file of a project, empty if there is none. -/
def ofProject (readers : Readers) (path : Path) (bytes : List UInt8) : Except Failure Fields := do
  let text ← decode bytes
  let fields ← (readers.toml (.ofList text)).mapError (Trouble.failure (.project path))
  match (fields.get? "tool").getD (.dict []) with
  | .dict tools =>
    match (Fields.get? tools "md2nexus").getD .null with
    | .null => return []
    | .dict config => return config
    | v => throw (Fault.notTable path v.typeName).failure
  | v => throw (.noLookup v.typeName)

/-- The configuration of a YAML document; an empty one has nothing in it. -/
def ofYaml (readers : Readers) (path : Path) (bytes : List UInt8) : Except Failure Fields :=
  match readers.yaml bytes with
  | .error trouble => throw (trouble.failure (.yaml path))
  | .ok .null => return []
  | .ok (.dict config) => return config
  | .ok v => throw (Fault.notMapping v.typeName).failure

/-- The configuration of a JSON document. -/
def ofJson (readers : Readers) (path : Path) (bytes : List UInt8) : Except Failure Fields := do
  let text ← decode bytes
  match readers.json (.ofList (Text.normalizeBreaks text)) with
  | .error trouble => throw (trouble.failure (.json path))
  | .ok (.dict config) => return config
  | .ok v => throw (Fault.notObject v.typeName).failure

/-! ### Files -/

/-- The formats of files with a configuration. -/
inductive Format where
  | project
  | toml
  | yaml
  | json
  deriving DecidableEq, Repr

/-- The name of the file of a project. -/
def projectName : String := "pyproject.toml"

/-- The format of a file by its name. -/
def format? (path : Path) : Option Format :=
  let suffix := Text.lower path.suffix
  if Text.lower path.name = projectName then some .project
  else if suffix = ".toml" then some .toml
  else if suffix = ".yaml" || suffix = ".yml" then some .yaml
  else if suffix = ".json" then some .json
  else none

/-- What a file in a format is called when it cannot be read. -/
def Format.description : Format → String
  | project => "pyproject.toml"
  | toml => "TOML config"
  | yaml => "YAML config"
  | json => "JSON config"

/-- The configuration that the bytes of a file write in a format. -/
def Format.read (readers : Readers) : Format → Path → List UInt8 → Except Failure Fields
  | project => ofProject readers
  | toml => ofToml readers
  | yaml => ofYaml readers
  | json => ofJson readers

/-- The configuration that a file holds in a format. -/
def Format.readFile (readers : Readers) (format : Format) (w : Workspace) (path : Path) :
    Except Failure Fields := do
  let bytes ← (w.store.read w.here path).mapError fun why =>
    (Fault.unreadable format.description path why).failure
  format.read readers path bytes

/-- The configuration in a file. -/
def load (path : Path) (readers : Readers := {}) : Job Fields := do
  match ← Files.look path, format? path with
  | none, _ => throw (Fault.missing path).failure
  | some .directory, _ => throw (Fault.notFile path).failure
  | some (.file _), none => throw (Fault.unknownSuffix (Text.lower path.suffix)).failure
  | some (.file _), some format =>
    let config ← Job.ofLogged (Logged.lift (format.readFile readers (← get) path))
    Job.report .debug .configuration s!"Loaded configuration from {path}"
    return config

/-! ### Discovery -/

/-- The names of files that hold nothing but a configuration, in the order in which they count. -/
def dedicatedNames : List String :=
  [".md2nexus.toml", ".md2nexus.yaml", ".md2nexus.yml", ".md2nexus.json"]

/-- The path of an address. -/
def pathOf (a : Address) : Path := ⟨"/", a⟩

/-- The first of some paths at which there is a file. -/
def firstFile : List Path → Job (Option Path)
  | [] => return none
  | p :: rest => do
    if ← Files.isFile p then return some p else firstFile rest

/-- Whether the file of a project in a directory has a configuration; one that cannot be read has
none. -/
def projectHasConfig (directory : Address) (readers : Readers := {}) : Job Bool := do
  let path := pathOf (directory ++ [projectName])
  if ← Files.isFile path then
    match Format.project.readFile readers (← get) path with
    | .ok config => return !config.isEmpty
    | .error f =>
      if f.kind = .argument then
        Job.report .debug .configuration s!"Ignoring unreadable {path}: {f.message}"
        return false
      else throw f
  else return false

/-- The nearest file with a configuration in the directories of a list. -/
def findIn (directories : List Address) (readers : Readers := {}) : Job (Option Path) :=
  match directories with
  | [] => return none
  | directory :: rest => do
    match ← firstFile (dedicatedNames.map fun name => pathOf (directory ++ [name])) with
    | some p => return some p
    | none =>
      if ← projectHasConfig directory readers then
        return some (pathOf (directory ++ [projectName]))
      else findIn rest readers

/-- A directory and those above it, up to the root. -/
def upward (directory : Address) : List Address :=
  (List.range (directory.length + 1)).reverse.map directory.take

/-- The nearest file with a configuration, from a directory upward. -/
def findAbove (start : Path) (readers : Readers := {}) : Job (Option Path) := do
  let w ← get
  findIn (upward (Store.addressOf w.here start)) readers

/-- The file with the configuration that counts where none is named: the nearest from a directory
upward, or one in the home directory. -/
def discover (start home : Path) (readers : Readers := {}) : Job (Option Path) := do
  match ← findAbove start readers with
  | some p => return some p
  | none => firstFile (dedicatedNames.map home.child)

/-- The configuration that counts: that of the first named file, or of the one that is found. -/
def choose (named : List (Option String)) (home : Path) (readers : Readers := {}) :
    Job Fields := do
  match named.findSome? fun p => p.filter (· ≠ "") with
  | some p => load (.ofString p) readers
  | none =>
    match ← discover (.ofString ".") home readers with
    | some p =>
      Job.report .info .configuration s!"Using configuration file {p}"
      load p readers
    | none => return []

end Bulletin.ConfigFile
