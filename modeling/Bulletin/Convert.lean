import Bulletin.Markdown.Document
import Bulletin.Markdown.FrontMatter
import Bulletin.Markdown.Tokenize
import Bulletin.Page.Render
import Bulletin.Value.Json
import Bulletin.Workspace

/-! # Conversions

A document comes as a text, as bytes, from a stream or from a file, and is written in Markdown or as
a document tree in JSON. It is read to a tree with the options of its format, and the tree is
rendered as a page. -/

namespace Bulletin

/-- A document as it is handed over. -/
inductive Input where
  | text (s : String)
  | bytes (bs : List UInt8)
  | byteStream (bs : List UInt8)
  | textStream (s : String)
  | file (p : Path)
  | other (v : Value)

/-- The formats of documents. -/
inductive Format where
  | markdown
  | tree
  deriving DecidableEq, Repr

namespace Format

/-- The name of a format. -/
def name : Format → String
  | markdown => "markdown"
  | tree => "mdast"

/-- The failure for a name that is no format. -/
def unknown (v : Value) : Failure := .badFormat v formatNames

/-- The format with a name. -/
def ofValue? : Value → Option Format
  | .str "markdown" => some markdown
  | .str "mdast" => some tree
  | _ => none

/-- The format of a file, by its suffix. -/
def ofPath (p : Path) : Format := if Text.lower p.suffix = ".json" then tree else markdown

/-- Whether a text holds another. -/
def holds (part : List Char) : List Char → Bool
  | [] => part.isEmpty
  | c :: r => Text.startsWith (c :: r) part || holds part r

/-- The format of a text: a tree if it starts like an object and soon names a type. -/
def ofText (s : String) : Format :=
  let head := (Text.trimStart Text.isBlank s.toList).take 256
  if head.head? = some '{' && holds "\"type\"".toList head then tree else markdown

/-- The format that an input seems to have; only a path and a text are looked at. -/
def detect : Input → Format
  | .file p => ofPath p
  | .text s => ofText s
  | _ => markdown

end Format

/-- The options of a reader that is ready for use. -/
inductive ReaderOptions where
  | markdown (o : MarkdownOptions)
  | tree (o : TreeOptions)
  deriving Inhabited

namespace ReaderOptions

/-- The options of the reader for a format: those that are given, if they are of its kind. -/
def forFormat (given : Option Options) : Format → Except Failure ReaderOptions
  | .markdown =>
    match given with
    | none => .ok (.markdown {})
    | some (.markdown o) => .ok (.markdown o)
    | some o => .error (.wrongOptions "markdown" .markdown o.kind)
  | .tree =>
    match given with
    | none => .ok (.tree {})
    | some (.tree o) => .ok (.tree o)
    | some o => .error (.wrongOptions "mdast" .tree o.kind)

/-- The options of the reader for a format that is given by name. -/
def forName (given : Option Options) (format : Value) : Except Failure ReaderOptions :=
  match Format.ofValue? format with
  | some f => forFormat given f
  | none => .error (Format.unknown format)

/-- Options as options of any kind. -/
def options : ReaderOptions → Options
  | markdown o => .markdown o
  | tree o => .tree o

end ReaderOptions

/-! ### Reading documents -/

/-- The extensions that options turn on. -/
def MarkdownOptions.extensions (o : MarkdownOptions) : Markdown.Extensions where
  tables := o.tables.truthy
  strikethrough := o.strikethrough.truthy
  footnotes := o.footnotes.truthy
  math := o.math.truthy
  autolinks := o.autolinks.truthy

/-- The front matter of a text, if it is read, and the text after it. -/
def MarkdownOptions.splitFront (o : MarkdownOptions) (text : String) : Option Mdast.Node × String :=
  if o.frontMatter.truthy then
    let (front, rest) := Markdown.FrontMatter.split text.toList
    (front, .ofList rest)
  else (none, text)

/-- A function that cuts a Markdown text into tokens, or tells why it does not. -/
abbrev Tokenizer := Markdown.Extensions → String → Except String Markdown.Tokens

/-- The tokenizer of this library, which cuts every text. -/
def ownTokenizer : Tokenizer := fun e s => .ok (Markdown.tokenize e s)

/-- The document of a Markdown text that a tokenizer cuts into tokens. -/
def readMarkdownWith (tokenizer : Tokenizer) (o : MarkdownOptions) (text : String) :
    Logged Failure Mdast.Node := do
  let (front, rest) := o.splitFront text
  match tokenizer o.extensions rest with
  | .error why => throw (.tokens why)
  | .ok tokens =>
    modify (· ++ tokens.records front)
    return tokens.document front

/-- The failure of reading a tree; a number out of every range is not put down to the document. -/
def treeFailure (f : Mdast.Fault) : Failure :=
  match f.kind with
  | .overflow => .tree f
  | _ => .shape f

/-- The document of a JSON text. -/
def readTree (o : TreeOptions) (text : String) : Logged Failure Mdast.Node := do
  let v ← Logged.lift ((Json.read text).mapError .json)
  let root ← Logged.mapError treeFailure (Mdast.readDocument o.strict.truthy v)
  Logged.report .debug .treeDocuments
    s!"Read mdast tree with {root.children.length} top-level nodes"
  return root

/-- The document of a text. -/
def ReaderOptions.read (o : ReaderOptions) (text : String) (tokenizer : Tokenizer := ownTokenizer) :
    Logged Failure Mdast.Node :=
  match o with
  | .markdown o => readMarkdownWith tokenizer o text
  | .tree o => readTree o text

/-- The name of bytes that come from nowhere in particular. -/
def unnamedBytes : String := "<bytes>"

/-- The text of an input. Bytes and streams lose a byte order mark at their start. -/
def Input.load : Input → Job String
  | .text s => return s
  | .bytes bs => Job.ofLogged (Logged.lift (decodeText bs unnamedBytes))
  | .byteStream bs => Job.ofLogged (Logged.lift (decodeText bs unnamedBytes))
  | .textStream s => return .ofList (Text.dropMark s.toList)
  | .file p => Files.readText p
  | .other v => throw (.inputType v.typeName)

/-- The format by which an input is to be read; `auto` stands for the one that it seems to have. -/
def Input.format (input : Input) (format : Value) : Except Failure Format :=
  match format with
  | .str "auto" => .ok (Format.detect input)
  | v =>
    match Format.ofValue? v with
    | some f => .ok f
    | none => .error (Format.unknown v)

/-- The document of an input. -/
def parse (input : Input) (format : Value) (given : Option Options)
    (tokenizer : Tokenizer := ownTokenizer) : Job Mdast.Node := do
  let f ← Job.ofLogged (Logged.lift (input.format format))
  Job.report .debug .conversion s!"Parsing input as {f.name}"
  let o ← Job.ofLogged (Logged.lift (ReaderOptions.forFormat given f))
  let text ← input.load
  Job.ofLogged (o.read text tokenizer)

/-! ### Pages -/

/-- The options of the renderer: those that are given, if they are of its kind. -/
def rendererOptions (given : Option Options) : Except Failure PageOptions :=
  match given with
  | none => .ok {}
  | some (.page o) => .ok o
  | some o => .error (.wrongOptions "nexus" .page o.kind)

/-- The page of a document. -/
def renderPage (o : PageOptions) (document : Mdast.Node) : Job String :=
  Job.ofLogged (Logged.mapError .page (Page.render o document))

/-- The page of an input. -/
def convert (input : Input) (format : Value) (reader renderer : Option Options)
    (tokenizer : Tokenizer := ownTokenizer) : Job String := do
  let document ← parse input format reader tokenizer
  let o ← Job.ofLogged (Logged.lift (rendererOptions renderer))
  renderPage o document

/-- The page of a file, written to another file if one is named. -/
def convertFile (source : Path) (destination : Option Path) (format : Value)
    (reader renderer : Option Options) (tokenizer : Tokenizer := ownTokenizer) : Job String := do
  let page ← convert (.file source) format reader renderer tokenizer
  destination.forM (Files.writeText page)
  return page

/-- A document tree as JSON text. -/
def dumpTree (document : Mdast.Node) (indent : Option Nat) : Except Failure String :=
  (document.toJson indent).mapError .serialization

end Bulletin
