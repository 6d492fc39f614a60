import Bulletin.Mdast.Read
import Bulletin.Mdast.Write
import Bulletin.Options
import Bulletin.Page.Render
import Bulletin.Store
import Bulletin.Text.Utf8

/-! # Failures

Everything that can go wrong around a conversion, as a cause. A failure has a kind, which decides
the exit code of the command, a message, and some details under fixed names. The kinds that the
library has of its own form a tree under one root; the others are plain faults of a value, of a
type and the like, which a caller of the library meets too. -/

namespace Bulletin

/-! ### Kinds -/

/-- The kinds of failures; from `value` on they are outside the library's own tree. -/
inductive FailureKind where
  | library
  | validation
  | invalidOptions
  | file
  | fileNotFound
  | fileAccess
  | format
  | parsing
  | rendering
  | outputWrite
  | value
  | type
  | overflow
  | noAttribute
  | key
  | index
  | argument
  | encoding
  | other (name : String)
  deriving DecidableEq, Repr

namespace FailureKind

/-- The class name of a kind. -/
def name : FailureKind → String
  | library => "Md2NexusError"
  | validation => "ValidationError"
  | invalidOptions => "InvalidOptionsError"
  | file => "FileError"
  | fileNotFound => "FileNotFoundError"
  | fileAccess => "FileAccessError"
  | format => "FormatError"
  | parsing => "ParsingError"
  | rendering => "RenderingError"
  | outputWrite => "OutputWriteError"
  | value => "ValueError"
  | type => "TypeError"
  | overflow => "OverflowError"
  | noAttribute => "AttributeError"
  | key => "KeyError"
  | index => "IndexError"
  | argument => "ArgumentTypeError"
  | encoding => "UnicodeDecodeError"
  | other s => s

/-- The library's kinds from a kind up to the root of the tree, none for one outside it. -/
def ancestry : FailureKind → List FailureKind
  | library => [library]
  | validation => [validation, library]
  | invalidOptions => [invalidOptions, validation, library]
  | file => [file, library]
  | fileNotFound => [fileNotFound, file, library]
  | fileAccess => [fileAccess, file, library]
  | format => [format, library]
  | parsing => [parsing, library]
  | rendering => [rendering, library]
  | outputWrite => [outputWrite, rendering, library]
  | _ => []

/-- Whether a kind is one of the library's own. -/
def isLibrary (k : FailureKind) : Bool := !k.ancestry.isEmpty

/-- The exit codes of the branches of the tree of kinds. -/
def branchExitCode? : FailureKind → Option Nat
  | validation => some 3
  | file => some 4
  | format => some 5
  | parsing => some 6
  | rendering => some 7
  | _ => none

/-- The exit code of the command for a kind. -/
def exitCode (k : FailureKind) : Nat := (k.ancestry.findSome? branchExitCode?).getD 1

/-- No failure has the exit code of a success. -/
theorem exitCode_pos (k : FailureKind) : 0 < k.exitCode := by
  cases k <;> first | decide | exact Nat.one_pos

/-- The library's own kinds. -/
def own : List FailureKind :=
  [library, validation, invalidOptions, file, fileNotFound, fileAccess, format, parsing, rendering,
    outputWrite]

/-- The kind with a class name. -/
def ofName (s : String) : FailureKind := (own.find? (·.name == s)).getD (other s)

end FailureKind

/-! ### Causes -/

/-- The names of the input formats, in the order in which messages list them. -/
def formatNames : List String := ["auto", "markdown", "mdast"]

/-- What went wrong. -/
inductive Failure where
  | json (e : Json.Error)
  | shape (f : Mdast.Fault)
  | tokens (why : String)
  | wrongOptions (component : String) (expected received : OptionsKind)
  | inputType (typeName : String)
  | outputType (typeName : String)
  | badFormat (format : Value) (supported : List String)
  | notDirectory (path : String)
  | workers (n : Int)
  | settings (name : String) (why : OptionsFault)
  | fileNotFound (path : String)
  | fileAccess (path : String)
  | notUtf8 (name : String) (why : Text.Utf8Error)
  | undecoded (bytes : List UInt8) (stop : Text.Utf8Stop)
  | noLookup (typeName : String)
  | outputWrite (path : String)
  | outputDirectory (path : String)
  | system (fault : FileFault) (path : String)
  | options (why : OptionsFault)
  | tree (why : Mdast.Fault)
  | serialization (why : Mdast.WriteFault)
  | page (why : Page.Fault)
  | argument (message : String)
  | stated (kind : FailureKind) (message : String) (details : Fields)

/-- The kind of a fault of a tree that is not read from a document. -/
def Mdast.Fault.failureKind (f : Mdast.Fault) : FailureKind :=
  match f.kind with
  | .value => .value
  | .type => .type
  | .overflow => .overflow

namespace Failure

/-- The words for an unknown format; one that does not count as given is not named. -/
def formatMessage (format : Value) (supported : List String) : String :=
  if format.truthy then
    s!"Unsupported input format: '{format.display}'" ++
      (if supported.isEmpty then "" else ". Supported formats: " ++ ", ".intercalate supported)
  else "Input format is not supported"

/-- The words for bytes that are no text, which tell the place of those that are to blame. -/
def undecodedMessage (bytes : List UInt8) (stop : Text.Utf8Stop) : String :=
  let start := bytes.length - stop.left - stop.begun
  let last := start + max 1 stop.begun - 1
  let place :=
    if last = start then
      let code := String.ofList (Text.hexDigits 2 ((bytes[start]?.map (·.toNat)).getD 0))
      s!"byte 0x{code} in position {start}"
    else s!"bytes in position {start}-{last}"
  s!"'utf-8' codec can't decode {place}: {stop.why.message}"

/-- The kind of a failure. -/
def kind : Failure → FailureKind
  | json _ => .parsing
  | .shape _ => .parsing
  | tokens _ => .parsing
  | wrongOptions .. => .invalidOptions
  | inputType _ => .validation
  | outputType _ => .type
  | badFormat .. => .format
  | notDirectory _ => .validation
  | workers _ => .validation
  | .settings .. => .validation
  | fileNotFound _ => .fileNotFound
  | fileAccess _ => .fileAccess
  | notUtf8 .. => .fileAccess
  | undecoded .. => .encoding
  | noLookup _ => .noAttribute
  | outputWrite _ => .outputWrite
  | outputDirectory _ => .outputWrite
  | system fault _ => .other fault.className
  | options why => if why.isType then .type else .value
  | tree why => why.failureKind
  | serialization .noName => .value
  | serialization (.notIterable _) => .type
  | page (.notText ..) => .type
  | page (.noChildren _) => .noAttribute
  | argument _ => .argument
  | stated k _ _ => k

/-- The words for a failure. -/
def message : Failure → String
  | json e =>
    (if e.fault.isMalformed then "Invalid JSON in mdast input: " else "Invalid mdast structure: ") ++
      e.message
  | .shape f => s!"Invalid mdast structure: {f.message}"
  | tokens why => s!"Failed to parse Markdown: {why}"
  | wrongOptions component expected received =>
    s!"{component} expected options of type '{expected.className}' " ++
      s!"but received '{received.className}'"
  | inputType t => s!"Unsupported input type: {t}"
  | outputType t => s!"Unsupported output type: {t}"
  | badFormat format supported => formatMessage format supported
  | notDirectory path => s!"Not a directory: {path}"
  | workers n => s!"max_workers must be at least 1, got {n}"
  | .settings name why => s!"Invalid [{name}] options: {why.message}"
  | fileNotFound path => s!"File not found: {path}"
  | fileAccess path => s!"Cannot access file: {path}"
  | notUtf8 name why => s!"Input is not valid UTF-8: {name} ({why.message})"
  | undecoded bytes stop => undecodedMessage bytes stop
  | noLookup t => s!"'{t}' object has no attribute 'get'"
  | outputWrite path => s!"Failed to write output file: {path}"
  | outputDirectory path => s!"Cannot create output directory: {path}"
  | system fault path => fault.message (Text.quoted path)
  | options why => why.message
  | tree why => why.message
  | serialization why => why.message
  | page why => why.message
  | argument m => m
  | stated _ m _ => m

/-- The details of a failure under their names. -/
def details : Failure → Fields
  | json e =>
    let stage := if e.fault.isMalformed then "json_parsing" else "ast_deserialization"
    [("parsing_stage", .str stage)]
  | .shape _ => [("parsing_stage", .str "ast_deserialization")]
  | tokens _ => [("parsing_stage", .str "tokenize")]
  | wrongOptions .. => [("parameter_name", .str "options")]
  | inputType _ => [("parameter_name", .str "input_data")]
  | badFormat format _ => [("format_type", format)]
  | notDirectory _ => [("parameter_name", .str "input_dir")]
  | workers _ => [("parameter_name", .str "max_workers")]
  | .settings name _ => [("parameter_name", .str name)]
  | fileNotFound path => [("file_path", .str path)]
  | fileAccess path => [("file_path", .str path)]
  | notUtf8 name _ => [("file_path", .str name)]
  | outputWrite path => [("rendering_stage", .str "file_write"), ("file_path", .str path)]
  | outputDirectory path => [("rendering_stage", .str "file_write"), ("file_path", .str path)]
  | stated _ _ details => details
  | _ => []

/-- The exit code of the command for a failure. -/
def exitCode (f : Failure) : Nat := f.kind.exitCode

/-! ### Failures stated by their kind -/

/-- The fields that a failure of a kind must be stated with. -/
def requiredFields : FailureKind → List String
  | .invalidOptions => ["component_name", "expected_type", "received_type"]
  | .fileNotFound => ["file_path"]
  | .fileAccess => ["file_path"]
  | .outputWrite => ["file_path"]
  | .format => []
  | _ => ["message"]

/-- The further fields that a failure of a kind may be stated with. -/
def optionalFields : FailureKind → List String
  | .validation => ["parameter_name", "parameter_value"]
  | .file => ["file_path"]
  | .format => ["message", "format_type", "supported_formats"]
  | .parsing => ["parsing_stage"]
  | .rendering => ["rendering_stage"]
  | _ => ["message"]

/-- The names of missing fields in a message. -/
def listNames (names : List String) : String :=
  let quoted := names.map Text.quoted
  match quoted.reverse with
  | c :: b :: a :: r => ", ".intercalate (b :: a :: r).reverse ++ ", and " ++ c
  | [b, a] => a ++ " and " ++ b
  | r => ", ".intercalate r.reverse

/-- The fault of a call that leaves out fields. -/
def missingFields (owner : String) (names : List String) : Failure :=
  let plural := if names.length = 1 then "" else "s"
  stated .type (s!"{owner}.__init__() missing {names.length} required positional " ++
    s!"argument{plural}: {listNames names}") []

/-- The fault of a call with a field that there is not. -/
def unexpectedField (owner name : String) : Failure :=
  stated .type s!"{owner}.__init__() got an unexpected keyword argument '{name}'" []

/-- The options kind of a short name. -/
def optionsKind? : String → Option OptionsKind
  | "markdown" => some .markdown
  | "mdast" => some .tree
  | "nexus" => some .page
  | "base_parser" => some .parserBase
  | "base_renderer" => some .rendererBase
  | _ => none

/-- The class name of the options kind that a field names. -/
def optionsClass (fields : Fields) (key : String) : String :=
  ((fields.getD key).text?.bind optionsKind?).elim "" (·.className)

/-- The message of a failure of a kind for which none is given. -/
def defaultMessage (fields : Fields) : FailureKind → String
  | .invalidOptions =>
    let component := (fields.getD "component_name").display
    let expected := optionsClass fields "expected_type"
    let received := optionsClass fields "received_type"
    s!"{component} expected options of type '{expected}' but received '{received}'"
  | .fileNotFound => "File not found: " ++ (fields.getD "file_path").display
  | .fileAccess => "Cannot access file: " ++ (fields.getD "file_path").display
  | .outputWrite => "Failed to write output file: " ++ (fields.getD "file_path").display
  | .format =>
    formatMessage (fields.getD "format_type") <|
      match fields.getD "supported_formats" with
      | .list names => names.map (·.display)
      | _ => []
  | _ => Value.null.display

/-- The detail fields of a failure of a kind. -/
def statedDetails (fields : Fields) (k : FailureKind) : Fields :=
  let own := fun s => [(s, fields.getD s)]
  match k with
  | .validation => own "parameter_name"
  | .invalidOptions => [("parameter_name", .str "options")]
  | .file => own "file_path"
  | .fileNotFound => own "file_path"
  | .fileAccess => own "file_path"
  | .format => own "format_type"
  | .parsing => own "parsing_stage"
  | .rendering => own "rendering_stage"
  | .outputWrite => ("rendering_stage", .str "file_write") :: own "file_path"
  | _ => []

/-- The failure of one of the library's own kinds with its fields given by name. -/
def stateOwn (k : FailureKind) (fields : Fields) : Except Failure Failure :=
  let known := requiredFields k ++ optionalFields k ++ ["original_error"]
  let missing := (requiredFields k).filter fun s => !fields.has s
  match fields.find? fun p => !known.contains p.1 with
  | some (s, _) => .error (unexpectedField k.name s)
  | none =>
    if !missing.isEmpty then .error (missingFields k.name missing)
    else
      let m := match fields.getD "message" with
        | .null => defaultMessage fields k
        | m => m.display
      .ok (stated k m (statedDetails fields k))

/-- The failure of a kind outside the library, whose values stand without names. -/
def statePlain (k : FailureKind) (values : List Value) : Failure :=
  match k, values with
  | _, [] => stated k "" []
  | .other "KeyError", [v] => stated k v.inner []
  | _, [v] => stated k v.display []
  | .other "OSError", [n, s] => stated k s!"[Errno {n.display}] {s.display}" []
  | _, vs => stated k ("(" ++ ", ".intercalate (vs.map (·.inner)) ++ ")") []

/-- The failure of a kind with its fields. -/
def state (k : FailureKind) (fields : Fields) : Except Failure Failure :=
  if k.isLibrary then stateOwn k fields else .ok (statePlain k (fields.map (·.2)))

/-- A key that is not there. -/
def noKey (key : String) : Failure := stated .key (Text.quoted key) []

end Failure

end Bulletin
