import Bulletin.Log
import Bulletin.Markdown.Token
import Bulletin.Mdast.Node
import Bulletin.Text.Blank
import Bulletin.Text.Casing

/-! # Documents of Markdown tokens

The tokens of a text become a document tree: a node for each token, the rows of a table and the
notes of a footnote block in the place of the block that holds them, and the link definitions at
the end. A token of a type that is not known becomes nothing and is reported; an image keeps of its
children only their plain text. -/

namespace Bulletin.Markdown

open Mdast (Node)

/-! ### Inline tokens -/

/-- The text of a value, empty if it is none. -/
def rawText (v : Value) : String := v.text?.getD ""

mutual

/-- The plain text of an inline token, for the place of an image; a soft line break is a space. -/
def Inline.plain : Inline → String
  | .text raw => rawText raw
  | .softBreak => " "
  | .lineBreak => ""
  | .code raw => rawText raw
  | .math raw => rawText raw
  | .html raw => rawText raw
  | .noteReference key _ => key
  | .emphasis children => Inline.plains children
  | .strong children => Inline.plains children
  | .delete children => Inline.plains children
  | .link _ _ children => Inline.plains children
  | .linkReference _ _ children => Inline.plains children
  | .image _ _ children => Inline.plains children
  | .imageReference _ _ children => Inline.plains children
  | .unknown _ raw [] => rawText raw
  | .unknown _ _ (child :: children) => Inline.plain child ++ Inline.plains children

/-- The plain text of a row of inline tokens. -/
def Inline.plains : List Inline → String
  | [] => ""
  | t :: ts => Inline.plain t ++ Inline.plains ts

end

/-- The identifier that a footnote reference names: its key, or else its label. -/
def noteIdentifier (key label : String) : String :=
  Text.lower (if key.isEmpty then label else key)

mutual

/-- The node of an inline token, none for one of no known type. -/
def Inline.node : Inline → Option Node
  | .text raw => some (.literal .text raw)
  | .softBreak => some (.text "\n")
  | .lineBreak => some (.leaf .lineBreak none)
  | .code raw => some (.literal .inlineCode raw)
  | .math raw => some (.literal .inlineMath raw)
  | .html raw => some (.literal .html raw)
  | .noteReference key label =>
    some (.leaf (.footnoteReference (.str (noteIdentifier key label)) .null) none)
  | .emphasis children => some (.container .emphasis (Inline.nodes children))
  | .strong children => some (.container .strong (Inline.nodes children))
  | .delete children => some (.container .delete (Inline.nodes children))
  | .link url title children => some (.of (.link url title) (Inline.nodes children))
  | .linkReference key label children =>
    some (.of (.linkReference (.str (Text.lower key)) label) (Inline.nodes children))
  | .image url title children =>
    some (.leaf (.image url (.str (Inline.plains children)) title) none)
  | .imageReference key label children =>
    let shown := Value.str (Inline.plains children)
    some (.leaf (.imageReference (.str (Text.lower key)) shown label) none)
  | .unknown .. => none

/-- The nodes of a row of inline tokens. -/
def Inline.nodes : List Inline → List Node
  | [] => []
  | t :: ts => (Inline.node t).toList ++ Inline.nodes ts

end

mutual

/-- The types of the tokens inside an inline token that become no node. -/
def Inline.skipped : Inline → List Value
  | .unknown type _ _ => [type]
  | .emphasis children => Inline.skippedEach children
  | .strong children => Inline.skippedEach children
  | .delete children => Inline.skippedEach children
  | .link _ _ children => Inline.skippedEach children
  | .linkReference _ _ children => Inline.skippedEach children
  | _ => []

/-- The types of the tokens inside a row of inline tokens that become no node. -/
def Inline.skippedEach : List Inline → List Value
  | [] => []
  | t :: ts => Inline.skipped t ++ Inline.skippedEach ts

end

/-! ### Tables -/

/-- The nodes of a row of cells. -/
def Cell.nodes (cells : List Cell) : List Node :=
  cells.filterMap fun c => c.content.map fun ts => .container .tableCell (Inline.nodes ts)

/-- The rows of a part of a table. -/
def TablePart.rows : TablePart → List (List Cell)
  | .head cells => [cells]
  | .body rows => rows

/-- The node of a row of a table. -/
def rowNode (cells : List Cell) : Node := .container .tableRow (Cell.nodes cells)

/-- The alignments of a table: those of the cells of its last head. -/
def alignments (parts : List TablePart) : List Value :=
  parts.foldl (fun align part =>
    match part with
    | .head cells => cells.map (·.align)
    | .body _ => align) []

/-- The node of a table. -/
def tableNode (parts : List TablePart) : Node :=
  .of (.table (.list (alignments parts))) (parts.flatMap fun p => p.rows.map rowNode)

/-- The types of the tokens inside a table that become no node. -/
def skippedInTable (parts : List TablePart) : List Value :=
  parts.flatMap fun p => p.rows.flatMap fun cells =>
    cells.flatMap fun c => Inline.skippedEach (c.content.getD [])

/-! ### Blocks -/

/-- The level of a heading: a whole number from 1 to 6, or else the first. -/
def headingLevel (v : Value) : Value :=
  match v.whole? with
  | some n => if 1 ≤ n && n ≤ 6 then v else .int 1
  | none => .int 1

/-- A text without one line feed at its end. -/
def dropLastBreak (s : String) : String :=
  match s.toList.reverse with
  | '\n' :: r => .ofList r.reverse
  | _ => s

/-- The language of a code block: the first word of its information. -/
def language (info : Option String) : Value :=
  match (info.map Text.words).getD [] with
  | w :: _ => .str w
  | [] => .null

/-- A text without the line feeds around it. -/
def trimBreaks (s : String) : String := .ofList (Text.trim (· = '\n') s.toList)

mutual

/-- The nodes of a block: one for most, one each for the notes of a footnote block, none for a
blank line and for a block of no known type. -/
def Block.nodes : Block → List Node
  | .heading level children => [.of (.heading (headingLevel level)) (Inline.nodes children)]
  | .paragraph children => [.container .paragraph (Inline.nodes children)]
  | .code raw info => [.leaf (.code (.str (dropLastBreak raw)) (language info)) none]
  | .quote children => [.container .blockquote (Block.nodesEach children)]
  | .list ordered start items => [.of (.list (.bool ordered) start) (Block.itemNodes items)]
  | .item children => [.container .listItem (Block.nodesEach children)]
  | .table parts => [tableNode parts]
  | .thematicBreak => [.leaf .thematicBreak none]
  | .html raw => [.literal .html raw]
  | .math raw => [.literal .math (.str (trimBreaks raw))]
  | .notes items => Block.noteNodes items
  | .blankLine => []
  | .unknown _ => []

/-- The nodes of a row of blocks. -/
def Block.nodesEach : List Block → List Node
  | [] => []
  | b :: bs => Block.nodes b ++ Block.nodesEach bs

/-- The nodes of the items of a list. -/
def Block.itemNodes : List (List Block) → List Node
  | [] => []
  | bs :: r => .container .listItem (Block.nodesEach bs) :: Block.itemNodes r

/-- The nodes of footnotes. -/
def Block.noteNodes : List (String × List Block) → List Node
  | [] => []
  | (key, bs) :: r =>
    .of (.footnoteDefinition (.str (Text.lower key)) .null) (Block.nodesEach bs) ::
      Block.noteNodes r

end

/-- A token that became no node, as it is reported. -/
def skipMessage (kind : String) (type : Value) : String :=
  s!"Skipping unhandled {kind} token type '{type.display}'"

/-- The messages for the tokens inside a row of inline tokens that become no node. -/
def inlineMessages (ts : List Inline) : List String :=
  (Inline.skippedEach ts).map (skipMessage "inline")

mutual

/-- The messages for the tokens of a block that become no node. -/
def Block.messages : Block → List String
  | .heading _ children => inlineMessages children
  | .paragraph children => inlineMessages children
  | .quote children => Block.messagesEach children
  | .list _ _ items => Block.itemMessages items
  | .item children => Block.messagesEach children
  | .table parts => (skippedInTable parts).map (skipMessage "inline")
  | .notes items => Block.noteMessages items
  | .unknown type => [skipMessage "block" type]
  | _ => []

/-- The messages for a row of blocks. -/
def Block.messagesEach : List Block → List String
  | [] => []
  | b :: bs => Block.messages b ++ Block.messagesEach bs

/-- The messages for the items of a list. -/
def Block.itemMessages : List (List Block) → List String
  | [] => []
  | bs :: r => Block.messagesEach bs ++ Block.itemMessages r

/-- The messages for footnotes. -/
def Block.noteMessages : List (String × List Block) → List String
  | [] => []
  | (_, bs) :: r => Block.messagesEach bs ++ Block.noteMessages r

end

/-! ### The document -/

/-- The node of a link definition. -/
def LinkDefinition.node (d : LinkDefinition) : Node :=
  .leaf (.definition ⟨.str (Text.lower d.key), d.url, d.title, d.label⟩) none

/-- The nodes of tokens: those of the blocks, then the link definitions. -/
def Tokens.nodes (tokens : Tokens) : List Node :=
  Block.nodesEach tokens.blocks ++ tokens.definitions.map LinkDefinition.node

/-- The document of tokens, with the front matter of its text before them. -/
def Tokens.document (front : Option Node) (tokens : Tokens) : Node :=
  .container .root (front.toList ++ tokens.nodes)

/-- What is reported when a document is made of tokens. -/
def Tokens.records (front : Option Node) (tokens : Tokens) : List Record :=
  ((Block.messagesEach tokens.blocks) ++
    [s!"Parsed Markdown into {(tokens.document front).children.length} top-level nodes"]).map
      (⟨.debug, .markdown, ·⟩)

end Bulletin.Markdown
