import Bulletin.Markdown.Block.Read
import Bulletin.Markdown.Line
import Bulletin.Text.Lines

/-! # Tokens of a text

A text becomes tokens in three passes: its blocks with the definitions among them, the lines of text
in the blocks, and the blocks and lines of the footnotes that the text refers to. Only those
footnotes are kept, in the order in which they are first referred to. -/

namespace Bulletin.Markdown

/-- The extensions of a reading of Markdown. -/
structure Extensions where
  tables : Bool := true
  strikethrough : Bool := true
  footnotes : Bool := true
  math : Bool := true
  autolinks : Bool := true
  deriving DecidableEq, Inhabited, Repr

namespace Extensions

/-- The extensions for blocks. -/
def forBlocks (e : Extensions) : BlockExtensions := ⟨e.tables, e.math, e.footnotes⟩

/-- What a line is read with, given the definitions. -/
def scene (e : Extensions) (d : Definitions) : Scene where
  math := e.math
  strikethrough := e.strikethrough
  footnotes := e.footnotes
  autolinks := e.autolinks
  definitions := d.links
  noteKeys := d.notes.map (·.1)

/-- The names of the extensions that are on, in a fixed order. -/
def names (e : Extensions) : List String :=
  [("table", e.tables), ("strikethrough", e.strikethrough), ("footnotes", e.footnotes),
    ("math", e.math), ("url", e.autolinks)].filterMap fun (name, on) =>
      if on then some name else none

end Extensions

/-! ### Outlines read to their leaves -/

/-- A character that is taken off the ends of the text of a leaf. -/
def isLeafBlank (c : Char) : Bool := c = ' ' || c = '\r' || c = '\n' || c = '\t' || c = '\x0c'

/-- The tokens of the text of a leaf. -/
def leafInlines (scene : Scene) (text : List Char) : List Inline :=
  inlines scene (Text.trim isLeafBlank text)

/-- The cells of a row of a table. -/
def readCells (scene : Scene) (aligns : List (Option Align)) (texts : List (List Char)) :
    List Cell :=
  List.zipWith (fun a t => ⟨a.elim .null fun a => .str a.name, some (leafInlines scene t)⟩)
    aligns texts

mutual

/-- The block of an outline. -/
def Outline.read (scene : Scene) : Outline → Block
  | .heading level text => .heading (.int level) (leafInlines scene text)
  | .paragraph text => .paragraph (leafInlines scene text)
  | .code raw info => .code (.ofList raw) info
  | .quote children => .quote (Outline.readEach scene children)
  | .list ordered start items =>
    let number := (start.elim 1 (·.val) : Nat)
    .list ordered (if ordered then .int number else .null) (Outline.readItems scene items)
  | .table aligns head rows =>
    .table [.head (readCells scene aligns head), .body (rows.map (readCells scene aligns))]
  | .thematicBreak => .thematicBreak
  | .html raw => .html (.str (.ofList raw))
  | .math raw => .math (.ofList raw)
  | .blankLine => .blankLine

/-- The blocks of outlines. -/
def Outline.readEach (scene : Scene) : List Outline → List Block
  | [] => []
  | o :: os => Outline.read scene o :: Outline.readEach scene os

/-- The items of a list. -/
def Outline.readItems (scene : Scene) : List (List Outline) → List (List Block)
  | [] => []
  | os :: r => Outline.readEach scene os :: Outline.readItems scene r

end

/-! ### Footnotes -/

mutual

/-- The keys of the footnotes that an inline token refers to. -/
def Inline.noteKeys : Inline → List String
  | .noteReference key _ => [key]
  | .emphasis children => Inline.noteKeysEach children
  | .strong children => Inline.noteKeysEach children
  | .delete children => Inline.noteKeysEach children
  | .link _ _ children => Inline.noteKeysEach children
  | .linkReference _ _ children => Inline.noteKeysEach children
  | .image _ _ children => Inline.noteKeysEach children
  | .imageReference _ _ children => Inline.noteKeysEach children
  | _ => []

/-- The keys of the footnotes that a row of inline tokens refers to. -/
def Inline.noteKeysEach : List Inline → List String
  | [] => []
  | t :: ts => Inline.noteKeys t ++ Inline.noteKeysEach ts

end

/-- The keys of the footnotes that a table refers to. -/
def tableNoteKeys (parts : List TablePart) : List String :=
  let cellKeys := fun cells : List Cell =>
    cells.flatMap fun c => Inline.noteKeysEach (c.content.getD [])
  parts.flatMap fun
    | .head cells => cellKeys cells
    | .body rows => rows.flatMap cellKeys

mutual

/-- The keys of the footnotes that a block refers to. -/
def Block.noteKeys : Block → List String
  | .heading _ children => Inline.noteKeysEach children
  | .paragraph children => Inline.noteKeysEach children
  | .quote children => Block.noteKeysEach children
  | .list _ _ items => Block.noteKeysItems items
  | .item children => Block.noteKeysEach children
  | .table parts => tableNoteKeys parts
  | _ => []

/-- The keys of the footnotes that a row of blocks refers to. -/
def Block.noteKeysEach : List Block → List String
  | [] => []
  | b :: bs => Block.noteKeys b ++ Block.noteKeysEach bs

/-- The keys of the footnotes that the items of a list refer to. -/
def Block.noteKeysItems : List (List Block) → List String
  | [] => []
  | bs :: r => Block.noteKeysEach bs ++ Block.noteKeysItems r

end

/-- A list without what has come before in it. -/
def firstOccurrences (keys : List String) : List String :=
  keys.foldl (fun seen k => if seen.contains k then seen else seen ++ [k]) []

/-- The text of a footnote without the indentation of its further lines, which is that of the
first one of them that is not empty; nothing if there is none. -/
def unindentNote? (text : List Char) : Option (List Char) :=
  let lines := Text.splitLines text
  (lines.tail.find? (!·.isEmpty)).map fun second =>
    let n := (second.takeWhile Text.isBlank).length
    let strip := fun l : List Char => if n ≤ indentOf l then l.drop (indentOf l) else l
    Text.joinWith ['\n'] ((Text.splitAtChar '\n' text).map strip)

/-- The outline of a footnote, and the definitions after it: a footnote of one line is a
paragraph. -/
def noteOutline (e : Extensions) (d : Definitions) (text : List Char) :
    List Outline × Definitions :=
  match unindentNote? text with
  | some body => Blocks.ofNote e.forBlocks d (Source.ofText (Text.trim Text.isBlank body))
  | none => ([.paragraph (Text.trim Text.isBlank text)], d)

/-- The outlines of the footnotes with some keys, and the definitions after them. -/
def noteOutlines (e : Extensions) (d : Definitions) :
    List String → List (String × List Outline) × Definitions
  | [] => ([], d)
  | key :: keys =>
    let (outline, d) := noteOutline e d ((List.lookup key d.notes).getD [])
    let (others, d) := noteOutlines e d keys
    ((key, outline) :: others, d)

/-- The tokens of a text. -/
def tokenize (e : Extensions) (text : String) : Tokens :=
  let (outlines, d) := Blocks.ofText e.forBlocks (Source.ofText (Text.normalizeBreaks text.toList))
  let blocks := Outline.readEach (e.scene d) outlines
  match firstOccurrences (Block.noteKeysEach blocks) with
  | [] => ⟨blocks, d.links⟩
  | keys =>
    let (notes, d) := noteOutlines e d keys
    let bodies := notes.map fun (key, os) => (key, Outline.readEach (e.scene d) os)
    ⟨blocks ++ [.notes bodies], d.links⟩

end Bulletin.Markdown
