import Bulletin.Mdast.Node
import Bulletin.Text.Blank
import Bulletin.Text.Lines

/-! # Front matter

A text may start with a block of settings between two fences, lines of three dashes or of three
plus signs. The block is cut off and kept as a node of its own; a text without a closing fence has
no front matter. -/

namespace Bulletin.Markdown.FrontMatter

/-- The fences, each with the kind of the node that its block becomes. -/
def fences : List (List Char × Mdast.Literal) :=
  [(['-', '-', '-'], .yaml), (['+', '+', '+'], .toml)]

/-- A text that starts with a fence on a line of its own. -/
def opens (fence text : List Char) : Bool :=
  Text.startsWith text (fence ++ ['\n']) || Text.startsWith text (fence ++ ['\r', '\n'])

/-- A carriage return or a line feed. -/
def isBreak (c : Char) : Bool := c = '\r' || c = '\n'

/-- The lines before the first one that is a fence, and those after it. -/
def cut (fence : List Char) : List (List Char) → Option (List (List Char) × List (List Char))
  | [] => none
  | l :: ls =>
    if Text.trimEnd isBreak l = fence then some ([], ls)
    else (cut fence ls).map fun (block, rest) => (l :: block, rest)

/-- The lines of a text with their breaks. -/
def fullLines (text : List Char) : List (List Char) :=
  (Text.linesWithBreaks text).map fun (l, b) => l ++ b

/-- The block between two fences and the text after them. -/
def between (fence text : List Char) : Option (List Char × List Char) :=
  (cut fence (fullLines text).tail).map fun (block, rest) =>
    (Text.trimEnd isBreak block.flatten, rest.flatten)

/-- The front matter of a text and the text after it. -/
def split (text : List Char) : Option Mdast.Node × List Char :=
  match fences.findSome? fun (fence, kind) =>
      if opens fence text then (between fence text).map fun r => (kind, r) else none with
  | some (kind, value, rest) => (some (.literal kind (.str (.ofList value))), rest)
  | none => (none, text)

end Bulletin.Markdown.FrontMatter
