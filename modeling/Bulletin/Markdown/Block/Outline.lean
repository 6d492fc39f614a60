import Bulletin.Markdown.Block.Source
import Bulletin.Markdown.Token

/-! # Outlines

The outline of a text is its block structure, with the text of the leaves still unread: lines of
text can only be read when all link definitions and footnotes are known. -/

namespace Bulletin.Markdown

/-- The alignment of a column of a table. -/
inductive Align where
  | left
  | center
  | right
  deriving DecidableEq, Repr

/-- The name of an alignment. -/
def Align.name : Align → String
  | left => "left"
  | center => "center"
  | right => "right"

/-- A block whose text is still unread. -/
inductive Outline where
  | heading (level : Nat) (text : List Char)
  | paragraph (text : List Char)
  | code (raw : List Char) (info : Option String)
  | quote (children : List Outline)
  | list (ordered : Bool) (start : Option ItemNumber) (items : List (List Outline))
  | table (aligns : List (Option Align)) (head : List (List Char)) (rows : List (List (List Char)))
  | thematicBreak
  | html (raw : List Char)
  | math (raw : List Char)
  | blankLine
  deriving Inhabited, Repr

/-- What the blocks of a text define: links under their keys, and the unread texts of footnotes. -/
structure Definitions where
  links : List LinkDefinition := []
  notes : List (String × List Char) := []
  deriving Inhabited

namespace Definitions

/-- The definitions with one more link, unless its key is taken. -/
def addLink (d : Definitions) (link : LinkDefinition) : Definitions :=
  if d.links.any (·.key == link.key) then d else { d with links := d.links ++ [link] }

/-- The definitions with one more footnote, unless its key is taken. -/
def addNote (d : Definitions) (key : String) (text : List Char) : Definitions :=
  if d.notes.any (·.1 == key) then d else { d with notes := d.notes ++ [(key, text)] }

end Definitions

/-- How far the reading of blocks has come: the blocks so far, from the last one on, the
definitions among them, and the lines that are left. -/
structure Progress where
  blocks : List Outline := []
  definitions : Definitions := {}
  rest : Source
  deriving Inhabited

namespace Progress

/-- The progress with one more block, and other lines left. -/
def add (p : Progress) (b : Outline) (rest : Source) : Progress :=
  { p with blocks := b :: p.blocks, rest }

/-- Whether the last block is a paragraph, which the next line may continue. -/
def inParagraph (p : Progress) : Bool :=
  match p.blocks with
  | .paragraph _ :: _ => true
  | _ => false

/-- The progress with its first line left taken up into a paragraph. -/
def continueParagraph (p : Progress) : Progress :=
  match p.rest with
  | [] => p
  | l :: rest =>
    match p.blocks with
    | .paragraph text :: blocks =>
      { p with blocks := .paragraph (text ++ l.text ++ ['\n']) :: blocks, rest }
    | blocks => { p with blocks := .paragraph (l.text ++ ['\n']) :: blocks, rest }

end Progress

/-- What a rule for blocks says about the lines that are left: it is absent there, it is refused
and the first line is text, or it gives further progress. -/
inductive Outcome where
  | absent
  | refused
  | taken (p : Progress)

/-- A rule for blocks, from the first line that is left on. -/
abbrev BlockRule := Progress → SourceLine → Source → Outcome

end Bulletin.Markdown
