import Bulletin.Failure
import Bulletin.Value.Whole

/-! # Switches of the command

The switches that the command knows, with their spellings, and the readers of the values that are
not taken as they are. -/

namespace Bulletin.Command

/-- A switch of the command. -/
inductive Switch where
  | help
  | input
  | output
  | inputFormat
  | headingSize
  | monospaceFont
  | frontMatter
  | config
  | noConfig
  | parallel
  | skipErrors
  | dumpTree
  | verbose
  | logLevel
  | logFile
  | trace
  | version
  | about
  deriving DecidableEq, Inhabited, Repr

namespace Switch

/-- Every switch, in the order in which they are declared. -/
def all : List Switch :=
  [help, input, output, inputFormat, headingSize, monospaceFont, frontMatter, config, noConfig,
    parallel, skipErrors, dumpTree, verbose, logLevel, logFile, trace, version, about]

/-- The spellings of a switch. -/
def spellings : Switch → List String
  | help => ["-h", "--help"]
  | input => ["--input", "-i"]
  | output => ["--output", "-o"]
  | inputFormat => ["--input-format"]
  | headingSize => ["--heading-size"]
  | monospaceFont => ["--monospace-font"]
  | frontMatter => ["--frontmatter"]
  | config => ["--config"]
  | noConfig => ["--no-config"]
  | parallel => ["--parallel", "-p"]
  | skipErrors => ["--skip-errors"]
  | dumpTree => ["--dump-ast"]
  | verbose => ["--verbose", "-v"]
  | logLevel => ["--log-level"]
  | logFile => ["--log-file"]
  | trace => ["--trace"]
  | version => ["--version", "-V"]
  | about => ["--about", "-A"]

/-- The name of a switch in a message: its spellings. -/
def name (s : Switch) : String := "/".intercalate s.spellings

/-- Whether a switch is followed by a value. -/
def takesValue : Switch → Bool
  | input => true
  | output => true
  | inputFormat => true
  | headingSize => true
  | monospaceFont => true
  | config => true
  | parallel => true
  | logLevel => true
  | logFile => true
  | _ => false

/-- The values that a switch admits, if they are few. -/
def choices? : Switch → Option (List String)
  | inputFormat => some formatNames
  | logLevel => some ["DEBUG", "INFO", "WARNING", "ERROR"]
  | _ => none

/-- Every spelling with its switch. -/
def table : List (String × Switch) := all.flatMap fun s => s.spellings.map (·, s)

/-- The switch with a spelling. -/
def ofSpelling? (spelling : String) : Option Switch := List.lookup spelling table

end Switch

/-! ### Values -/

/-- A whole number above zero. -/
def positiveNumber (text : String) : Except String Int :=
  match Value.wholeOfText text with
  | .error _ => .error s!"Expected a positive integer, got {Text.quoted text}"
  | .ok n => if n < 1 then .error s!"Expected a positive integer, got {n}" else .ok n

/-- A size of headings. -/
def headingSize (text : String) : Except String Int :=
  match positiveNumber text with
  | .error why => .error why
  | .ok n =>
    if 7 < n then .error s!"Heading size must be between 1 and 7, got {n}" else .ok n

end Bulletin.Command
