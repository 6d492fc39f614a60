import Bulletin.Markdown.Lexeme
import Bulletin.Markdown.Target

/-! # Lines of text

A line of text is cut into pieces from left to right. An opening bracket is remembered with the
text after it; the bracket that closes it makes a link or an image of what is between them, if a
target or a label follows or the text itself is a label. The text between them is then read once
more on its own. Inside the text of a link there are no further links, so a finished link takes the
brackets before it out of the game. -/

namespace Bulletin.Markdown

/-- A mark in a line of text that is being read. Plain text next to plain text is one text; an
opening bracket that is never closed is plain text too. -/
inductive Mark where
  | plain (s : List Char)
  | token (t : Inline)
  | run (r : Run)
  | opening (image active : Bool) (after : List Char)

namespace Line

/-- An opening bracket as plain text. -/
def openingText (image : Bool) : List Char := if image then ['!', '['] else ['[']

/-- The marks with plain text at the end of them; the marks are given from the last one on. -/
def addPlain (s : List Char) (marks : List Mark) : List Mark :=
  match marks with
  | .plain t :: r => .plain (t ++ s) :: r
  | r => .plain s :: r

/-- The last opening bracket: the marks after it, what it is, and the marks before it. -/
def lastOpening : List Mark → Option (List Mark × (Bool × Bool × List Char) × List Mark)
  | [] => none
  | .opening image active after :: r => some ([], (image, active, after), r)
  | m :: r => (lastOpening r).map fun (above, o, below) => (m :: above, o, below)

/-- Marks in which no bracket opens a link. -/
def deactivate (marks : List Mark) : List Mark :=
  marks.map fun
    | .opening false _ after => .opening false false after
    | m => m

/-- The definition of a label, with its key. -/
def definition? (scene : Scene) (label : List Char) : Option LinkDefinition :=
  let key := labelKey label
  if key.isEmpty then none else scene.definitions.find? (·.key == key)

/-- What makes a link of the text between two brackets. -/
inductive Destination where
  | target (t : Target)
  | reference (key : String) (label : String)

/-- The destination that a label names, and the rest of the text after it. -/
def named? (scene : Scene) (label rest : List Char) : Option (Destination × List Char) :=
  (definition? scene label).map fun d => (.reference d.key (.ofList label), rest)

/-- The destination that a text names as its own label. -/
def namedByText? (scene : Scene) (text rest : List Char) : Option (Destination × List Char) :=
  if isLabel text then named? scene text rest else none

/-- The target after a closing bracket. -/
def targetAfter? : List Char → Option (Destination × List Char)
  | '(' :: r => (inlineTarget? r).map fun (t, rest) => (.target t, rest)
  | _ => none

/-- The destination that a label after a closing bracket names, or the text itself if there is no
label or an empty one. -/
def labelAfter? (scene : Scene) (text : List Char) :
    List Char → Option (Destination × List Char)
  | '[' :: r =>
    match label? r with
    | some ([], r) => namedByText? scene text r
    | some (label, r) => named? scene label r
    | none => namedByText? scene text ('[' :: r)
  | r => namedByText? scene text r

/-- The destination that follows a closing bracket, and the rest after it. -/
def destination? (scene : Scene) (text rest : List Char) : Option (Destination × List Char) :=
  (targetAfter? rest).or (labelAfter? scene text rest)

/-- The token of a link or an image. -/
def linkToken (image : Bool) (children : List Inline) : Destination → Inline
  | .target t =>
    let title := t.title.elim Value.null .str
    if image then .image (.str t.address) title children
    else .link (.str t.address) title children
  | .reference key label =>
    if image then .imageReference key (.str label) children
    else .linkReference key (.str label) children

/-- A reader of a whole text, used for the text of a link and for a struck passage. -/
abbrev Render := Scene → List Char → List Inline

/-- The tokens of a text that may be empty. -/
def renderSome (render : Render) (scene : Scene) (s : List Char) : List Inline :=
  if s.isEmpty then [] else render scene s

/-- The marks after a closing bracket, and the rest of the text. -/
def close (render : Render) (scene : Scene) (marks : List Mark) (rest : List Char) :
    List Mark × List Char :=
  match lastOpening marks with
  | none => (addPlain [']'] marks, rest)
  | some (above, (image, active, after), below) =>
    let text := after.take (after.length - rest.length - 1)
    let plain := addPlain [']'] (above ++ .plain (openingText image) :: below)
    if !active then (plain, rest)
    else
      match destination? scene text rest with
      | none => (plain, rest)
      | some (d, rest) =>
        let children := renderSome render { scene with inLink := scene.inLink || !image } text
        let below := if image then below else deactivate below
        (.token (linkToken image children d) :: below, rest)

/-- Whether a bracket right before a text closes a link or an image. -/
def closesLink (scene : Scene) (marks : List Mark) (rest : List Char) : Bool :=
  match lastOpening marks with
  | some (_, (_, true, after), _) =>
    (destination? scene (after.take (after.length - rest.length - 1)) rest).isSome
  | _ => false

/-- A bare address before the rest of a text, and that rest. It ends before the first bracket in it
if that one closes a link; where too little of it is left, there is none. -/
def boundAddress (scene : Scene) (marks : List Mark) (url rest : List Char) :
    Option (List Char × List Char) :=
  match url.span (· ≠ ']') with
  | (inner, ']' :: outer) =>
    if closesLink scene marks (outer ++ rest) then
      (Lexeme.bareAddress? inner).map fun (u, r) => (u, r ++ ']' :: outer ++ rest)
    else some (url, rest)
  | _ => some (url, rest)

/-- The marks after a bare address, and the rest of the text. -/
def address (scene : Scene) (marks : List Mark) (url rest : List Char) : List Mark × List Char :=
  match boundAddress scene marks url rest with
  | some (u, rest) => (.token (Lexeme.selfLink scene u u u) :: marks, rest)
  | none => (addPlain (url.take 1) marks, url.drop 1 ++ rest)

/-- The marks of a text after those that are given, from the last one on; `fuel` bounds the number
of lexemes, and every lexeme has at least one character. -/
def scan (render : Render) (scene : Scene) (before : Option Char) (marks : List Mark) :
    (fuel : Nat) → List Char → List Mark
  | _, [] => marks
  | 0, s => addPlain s marks
  | fuel + 1, s =>
    match Lexeme.read scene before s with
    | none => marks
    | some (lexeme, rest) =>
      let (scene, marks, rest) :=
        match lexeme with
        | .plain t => (scene, addPlain t marks, rest)
        | .token t => (scene, .token t :: marks, rest)
        | .address url =>
          let (marks, rest) := address scene marks url rest
          (scene, marks, rest)
        | .struck t => (scene, .token (.delete (render scene t)) :: marks, rest)
        | .run r => (scene, .run r :: marks, rest)
        | .opening image => (scene, .opening image true rest :: marks, rest)
        | .closing =>
          let (marks, rest) := close render scene marks rest
          (scene, marks, rest)
        | .anchor t opens => ({ scene with inLink := opens }, .token t :: marks, rest)
      let before := (s.take (s.length - rest.length)).getLast?
      scan render scene before marks fuel rest

/-- The pieces of marks in reading order, plain text next to plain text as one text. -/
def pieces : List Mark → List Piece
  | [] => []
  | m :: r =>
    let plain := fun s : List Char =>
      match r, pieces r with
      | .plain _ :: _, .token (.text (.str t)) :: ps =>
        .token (.text (.str (.ofList s ++ t))) :: ps
      | .opening .. :: _, .token (.text (.str t)) :: ps =>
        .token (.text (.str (.ofList s ++ t))) :: ps
      | _, ps => .token (textToken s) :: ps
    match m with
    | .plain s => plain s
    | .opening image _ _ => plain (openingText image)
    | .token t => .token t :: pieces r
    | .run run => .run run :: pieces r

/-- The tokens of a text in which links and struck passages are nested at most `depth` deep. -/
def render : (depth : Nat) → Render
  | 0, _, s => [textToken s]
  | depth + 1, scene, s =>
    if s.isEmpty then [textToken s]
    else
      Emphasis.resolve (pieces (scan (render depth) scene none [] s.length s).reverse)

end Line

/-- The tokens of a text. -/
def inlines (scene : Scene) (s : List Char) : List Inline := Line.render (s.length + 1) scene s

end Bulletin.Markdown
