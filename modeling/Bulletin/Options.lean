import Bulletin.Mdast.Read
import Bulletin.Value.Basic

/-! # Options

The options of the two parsers and of the page renderer, each with its defaults. Options come from
configuration files too, so their values are data values; only the renderer checks its own. Options
change by naming fields: an unknown name and a value that is refused leave the old options as they
were. -/

namespace Bulletin

/-- Options of the Markdown parser: the extensions that it reads. -/
structure MarkdownOptions where
  tables : Value := .bool true
  strikethrough : Value := .bool true
  footnotes : Value := .bool true
  math : Value := .bool true
  autolinks : Value := .bool true
  frontMatter : Value := .bool false
  deriving Inhabited, Repr

/-- Options of the reader of document trees. -/
structure TreeOptions where
  strict : Value := .bool true
  deriving Inhabited, Repr

/-- Options of the page renderer. -/
structure PageOptions where
  font : Value := .str "Courier"
  headingSize : Value := .int 5
  deriving Inhabited, Repr

/-- The kinds of options; two are the bare kinds that the others refine. -/
inductive OptionsKind where
  | markdown
  | tree
  | page
  | parserBase
  | rendererBase
  deriving DecidableEq, Inhabited, Repr

/-- The class name of a kind of options in messages. -/
def OptionsKind.className : OptionsKind → String
  | .markdown => "MarkdownParserOptions"
  | .tree => "MdastJsonParserOptions"
  | .page => "NexusRendererOptions"
  | .parserBase => "BaseParserOptions"
  | .rendererBase => "BaseRendererOptions"

/-- Options of any kind. -/
inductive Options where
  | markdown (o : MarkdownOptions)
  | tree (o : TreeOptions)
  | page (o : PageOptions)
  | parserBase
  | rendererBase
  deriving Inhabited, Repr

/-- Why options are refused. -/
inductive OptionsFault where
  | unknownField (kind : OptionsKind) (name : String)
  | sizeNotNumber (typeName : String)
  | sizeRange (size : Value)
  | fontNotText (typeName : String)
  | fontName (font : Value)
  deriving Inhabited, Repr

namespace OptionsFault

/-- Whether a fault is one of type: a field that does not exist, a value that cannot be checked. -/
def isType : OptionsFault → Bool
  | unknownField .. => true
  | sizeNotNumber _ => true
  | fontNotText _ => true
  | _ => false

/-- The words for a fault. -/
def message : OptionsFault → String
  | unknownField k name => s!"{k.className}.__init__() got an unexpected keyword argument '{name}'"
  | sizeNotNumber t => s!"'<=' not supported between instances of 'int' and '{t}'"
  | sizeRange v => s!"heading_size must be between 1 and 7, got {v.display}"
  | fontNotText t => s!"argument of type '{t}' is not iterable"
  | fontName v => s!"monospace_font must be a non-empty name without quotes, got {v.inner}"

end OptionsFault

/-- Whether a value holds a double quote: a text as a character, a list as an item, an object as a
key. The type's name is the error. -/
def Value.holdsQuote : Value → Except String Bool
  | .str s => .ok (s.toList.contains '"')
  | .list xs => .ok (xs.any fun v => v.equals (.str "\""))
  | .dict fields => .ok (Fields.has fields "\"")
  | v => .error v.typeName

/-- The check of the renderer's options: the heading size lies from 1 to 7, and the font is given
and holds no double quote. -/
def PageOptions.check (o : PageOptions) : Except OptionsFault Unit := do
  if !(← (Mdast.between 1 7 o.headingSize).mapError .sizeNotNumber) then
    throw (.sizeRange o.headingSize)
  if !o.font.truthy then throw (.fontName o.font)
  if ← o.font.holdsQuote.mapError .fontNotText then throw (.fontName o.font)

namespace Options

/-- The kind of options. -/
def kind : Options → OptionsKind
  | markdown _ => .markdown
  | tree _ => .tree
  | page _ => .page
  | parserBase => .parserBase
  | rendererBase => .rendererBase

/-- The default options of a kind. -/
def default : OptionsKind → Options
  | .markdown => markdown {}
  | .tree => tree {}
  | .page => page {}
  | .parserBase => parserBase
  | .rendererBase => rendererBase

/-- The fields of options under their names. -/
def fields : Options → Fields
  | markdown o =>
    [("parse_tables", o.tables), ("parse_strikethrough", o.strikethrough),
      ("parse_footnotes", o.footnotes), ("parse_math", o.math),
      ("parse_autolinks", o.autolinks), ("parse_frontmatter", o.frontMatter)]
  | tree o => [("strict_mode", o.strict)]
  | page o => [("monospace_font", o.font), ("heading_size", o.headingSize)]
  | parserBase => []
  | rendererBase => []

/-- Options with one field set, if there is such a field. -/
def set? (o : Options) (name : String) (v : Value) : Option Options :=
  match o, name with
  | markdown o, "parse_tables" => some (markdown { o with tables := v })
  | markdown o, "parse_strikethrough" => some (markdown { o with strikethrough := v })
  | markdown o, "parse_footnotes" => some (markdown { o with footnotes := v })
  | markdown o, "parse_math" => some (markdown { o with math := v })
  | markdown o, "parse_autolinks" => some (markdown { o with autolinks := v })
  | markdown o, "parse_frontmatter" => some (markdown { o with frontMatter := v })
  | tree _, "strict_mode" => some (tree ⟨v⟩)
  | page o, "monospace_font" => some (page { o with font := v })
  | page o, "heading_size" => some (page { o with headingSize := v })
  | _, _ => none

/-- Options with several fields set; the first unknown name is the fault. -/
def setAll (o : Options) (changes : Fields) : Except OptionsFault Options :=
  changes.foldlM (fun o (name, v) =>
    match o.set? name v with
    | some o => .ok o
    | none => .error (.unknownField o.kind name)) o

/-- The check of finished options. -/
def check : Options → Except OptionsFault Unit
  | page o => o.check
  | _ => .ok ()

/-- Options with some fields changed. -/
def update (o : Options) (changes : Fields) : Except OptionsFault Options := do
  let o ← o.setAll changes
  o.check
  return o

/-- Options of a kind with some fields given and the others as by default. -/
def build (kind : OptionsKind) (given : Fields) : Except OptionsFault Options :=
  (default kind).update given

/-- The names of the fields of a kind. -/
def fieldNames (kind : OptionsKind) : List String := (default kind).fields.map (·.1)

end Options

end Bulletin
