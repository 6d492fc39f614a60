import Bulletin.Value.Basic

/-! # Markdown tokens

A Markdown text is first cut into tokens: blocks, whose leaves hold rows of inline tokens. What a
token carries is a data value where tokens may be handed over from outside, since it is shown
unchanged. A token of a type that is not known is kept as such, so that it can be reported. -/

namespace Bulletin.Markdown

/-- A token inside a line of text. -/
inductive Inline where
  | text (raw : Value)
  | softBreak
  | lineBreak
  | code (raw : Value)
  | math (raw : Value)
  | html (raw : Value)
  | noteReference (key label : String)
  | emphasis (children : List Inline)
  | strong (children : List Inline)
  | delete (children : List Inline)
  | link (url title : Value) (children : List Inline)
  | linkReference (key : String) (label : Value) (children : List Inline)
  | image (url title : Value) (children : List Inline)
  | imageReference (key : String) (label : Value) (children : List Inline)
  | unknown (type raw : Value) (children : List Inline)
  deriving Inhabited, Repr

/-- A cell of a table: the alignment that it states, and its content, none for what is no cell. -/
structure Cell where
  align : Value
  content : Option (List Inline)
  deriving Inhabited, Repr

/-- A part of a table. -/
inductive TablePart where
  | head (cells : List Cell)
  | body (rows : List (List Cell))
  deriving Inhabited, Repr

/-- A block of a text. -/
inductive Block where
  | heading (level : Value) (children : List Inline)
  | paragraph (children : List Inline)
  | code (raw : String) (info : Option String)
  | quote (children : List Block)
  | list (ordered : Bool) (start : Value) (items : List (List Block))
  | item (children : List Block)
  | table (parts : List TablePart)
  | thematicBreak
  | html (raw : Value)
  | math (raw : String)
  | notes (items : List (String × List Block))
  | blankLine
  | unknown (type : Value)
  deriving Inhabited, Repr

/-- A link definition of a text, under its normalised key. -/
structure LinkDefinition where
  key : String
  url : Value
  title : Value
  label : Value
  deriving Inhabited, Repr

/-- The tokens of a text, with its link definitions in the order of their first appearance. -/
structure Tokens where
  blocks : List Block
  definitions : List LinkDefinition
  deriving Inhabited, Repr

end Bulletin.Markdown
