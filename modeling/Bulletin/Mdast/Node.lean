import Bulletin.Value.Basic

/-! # Document trees

A document is a tree of nodes in the mdast vocabulary. A node is a leaf or a branch with children,
and may know where it starts in its source. Documents read from JSON are not trusted, so what a
node carries is a data value of any type. -/

namespace Bulletin.Mdast

/-- Where a node starts in its source; null where that is not known. -/
structure Location where
  line : Value
  column : Value
  deriving Inhabited, Repr

/-- The place of a node in a message. -/
def Location.display (l : Location) : String :=
  match l.line, l.column with
  | .null, _ => "?"
  | line, .null => line.display
  | line, column => line.display ++ ":" ++ column.display

/-- The branches that carry nothing but their children. -/
inductive Container where
  | root
  | paragraph
  | blockquote
  | listItem
  | tableRow
  | tableCell
  | emphasis
  | strong
  | delete
  deriving DecidableEq, Inhabited, Repr

/-- A node with children, without them. -/
inductive Branch where
  | container (kind : Container)
  | heading (level : Value)
  | list (ordered start : Value)
  | table (align : Value)
  | link (url title : Value)
  | footnoteDefinition (identifier label : Value)
  | linkReference (identifier label : Value)
  deriving Inhabited, Repr

/-- The leaves that carry nothing but a text. -/
inductive Literal where
  | text
  | inlineCode
  | inlineMath
  | math
  | yaml
  | toml
  | html
  deriving DecidableEq, Inhabited, Repr

/-- The constructs of MDX, which have no counterpart on a page; `other` is one of no known kind. -/
inductive Foreign where
  | esm
  | flowExpression
  | textExpression
  | flowElement
  | textElement
  | other
  deriving DecidableEq, Inhabited, Repr

/-- A link definition: what a reference to its identifier stands for. -/
structure Definition where
  identifier : Value
  url : Value
  title : Value
  label : Value
  deriving Inhabited, Repr

/-- A node without children. -/
inductive Leaf where
  | literal (kind : Literal) (value : Value)
  | code (value lang : Value)
  | thematicBreak
  | lineBreak
  | image (url alt title : Value)
  | footnoteReference (identifier label : Value)
  | definition (d : Definition)
  | imageReference (identifier alt label : Value)
  | foreign (kind : Foreign) (value name : Value)
  deriving Inhabited, Repr

/-- A node of a document tree. -/
inductive Node where
  | leaf (leaf : Leaf) (location : Option Location)
  | branch (branch : Branch) (children : List Node) (location : Option Location)
  deriving Inhabited, Repr

namespace Node

/-- The children of a node; a leaf has none. -/
def children : Node → List Node
  | leaf .. => []
  | branch _ ns _ => ns

/-- A branch without a known place. -/
def of (b : Branch) (children : List Node) : Node := branch b children none

/-- A plain container without a known place. -/
def container (kind : Container) (children : List Node) : Node := of (.container kind) children

/-- A literal without a known place. -/
def literal (kind : Literal) (value : Value) : Node := leaf (.literal kind value) none

/-- A piece of text. -/
def text (s : String) : Node := literal .text (.str s)

mutual

/-- The number of nodes of a tree. -/
def size : Node → Nat
  | leaf .. => 1
  | branch _ ns _ => 1 + sizes ns

/-- The number of nodes of a row of trees. -/
def sizes : List Node → Nat
  | [] => 0
  | n :: ns => size n + sizes ns

end

end Node

/-! ### The names of the node types -/

/-- The type name of a plain container. -/
def Container.name : Container → String
  | .root => "root"
  | .paragraph => "paragraph"
  | .blockquote => "blockquote"
  | .listItem => "listItem"
  | .tableRow => "tableRow"
  | .tableCell => "tableCell"
  | .emphasis => "emphasis"
  | .strong => "strong"
  | .delete => "delete"

/-- Every plain container. -/
def Container.all : List Container :=
  [.root, .paragraph, .blockquote, .listItem, .tableRow, .tableCell, .emphasis, .strong, .delete]

/-- The type name of a literal. -/
def Literal.name : Literal → String
  | .text => "text"
  | .inlineCode => "inlineCode"
  | .inlineMath => "inlineMath"
  | .math => "math"
  | .yaml => "yaml"
  | .toml => "toml"
  | .html => "html"

/-- Every literal. -/
def Literal.all : List Literal := [.text, .inlineCode, .inlineMath, .math, .yaml, .toml, .html]

/-- The type name of an MDX construct, none for one of no known kind. -/
def Foreign.name? : Foreign → Option String
  | .esm => some "mdxjsEsm"
  | .flowExpression => some "mdxFlowExpression"
  | .textExpression => some "mdxTextExpression"
  | .flowElement => some "mdxJsxFlowElement"
  | .textElement => some "mdxJsxTextElement"
  | .other => none

/-- Every MDX construct of a known kind. -/
def Foreign.all : List Foreign :=
  [.esm, .flowExpression, .textExpression, .flowElement, .textElement]

/-- Whether an MDX construct is an element, which has a name instead of a text. -/
def Foreign.isElement : Foreign → Bool
  | .flowElement => true
  | .textElement => true
  | _ => false

/-- What an MDX construct is called in a warning. -/
def Foreign.category : Foreign → String
  | .flowExpression => "mdx"
  | .textExpression => "mdx"
  | .other => "unsupported"
  | _ => "mdx/jsx"

/-! ### The names of the node classes -/

/-- The class name of a plain container in messages. -/
def Container.className : Container → String
  | .root => "Root"
  | .paragraph => "Paragraph"
  | .blockquote => "BlockQuote"
  | .listItem => "ListItem"
  | .tableRow => "TableRow"
  | .tableCell => "TableCell"
  | .emphasis => "Emphasis"
  | .strong => "Strong"
  | .delete => "Delete"

/-- The class name of a literal in messages. -/
def Literal.className : Literal → String
  | .text => "Text"
  | .inlineCode => "InlineCode"
  | .inlineMath => "InlineMath"
  | .math => "Math"
  | .yaml => "Yaml"
  | .toml => "Toml"
  | .html => "Html"

/-- The class name of an MDX construct in messages. -/
def Foreign.className : Foreign → String
  | .esm => "MdxjsEsm"
  | .flowExpression => "MdxFlowExpression"
  | .textExpression => "MdxTextExpression"
  | .flowElement => "MdxJsxFlowElement"
  | .textElement => "MdxJsxTextElement"
  | .other => "UnsupportedNode"

/-- The class name of a leaf in messages. -/
def Leaf.className : Leaf → String
  | .literal k _ => k.className
  | .code .. => "Code"
  | .thematicBreak => "ThematicBreak"
  | .lineBreak => "Break"
  | .image .. => "Image"
  | .footnoteReference .. => "FootnoteReference"
  | .definition _ => "Definition"
  | .imageReference .. => "ImageReference"
  | .foreign k _ _ => k.className

/-! ### Equality -/

/-- Equality of places. -/
def Location.equals (a b : Location) : Bool := a.line.equals b.line && a.column.equals b.column

/-- Equality of places that may not be known. -/
def Location.equals? : Option Location → Option Location → Bool
  | none, none => true
  | some a, some b => a.equals b
  | _, _ => false

/-- Equality of branches without their children. -/
def Branch.equals : Branch → Branch → Bool
  | .container k, .container l => k == l
  | .heading a, .heading b => a.equals b
  | .list a b, .list c d => a.equals c && b.equals d
  | .table a, .table b => a.equals b
  | .link a b, .link c d => a.equals c && b.equals d
  | .footnoteDefinition a b, .footnoteDefinition c d => a.equals c && b.equals d
  | .linkReference a b, .linkReference c d => a.equals c && b.equals d
  | _, _ => false

/-- Equality of link definitions. -/
def Definition.equals (a b : Definition) : Bool :=
  a.identifier.equals b.identifier && a.url.equals b.url && a.title.equals b.title &&
    a.label.equals b.label

/-- Equality of leaves. -/
def Leaf.equals : Leaf → Leaf → Bool
  | .literal k a, .literal l b => k == l && a.equals b
  | .code a b, .code c d => a.equals c && b.equals d
  | .thematicBreak, .thematicBreak => true
  | .lineBreak, .lineBreak => true
  | .image a b c, .image d e f => a.equals d && b.equals e && c.equals f
  | .footnoteReference a b, .footnoteReference c d => a.equals c && b.equals d
  | .definition a, .definition b => a.equals b
  | .imageReference a b c, .imageReference d e f => a.equals d && b.equals e && c.equals f
  | .foreign k a b, .foreign l c d => k == l && a.equals c && b.equals d
  | _, _ => false

mutual

/-- Equality of trees, places included. -/
def Node.equals : Node → Node → Bool
  | .leaf a p, .leaf b q => a.equals b && Location.equals? p q
  | .branch a ms p, .branch b ns q => a.equals b && Node.equalsEach ms ns && Location.equals? p q
  | _, _ => false

/-- Equality of rows of trees. -/
def Node.equalsEach : List Node → List Node → Bool
  | [], [] => true
  | m :: ms, n :: ns => Node.equals m n && Node.equalsEach ms ns
  | _, _ => false

end

end Bulletin.Mdast
