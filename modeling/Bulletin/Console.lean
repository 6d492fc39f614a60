import Bulletin.Text.Blank
import Bulletin.Text.Width

/-! # Styled lines on a console

A console is eighty cells wide. A text is cut at its line feeds, and each of these lines is wrapped
at its words, a word being a run of characters that are no white space with the white space after
it; the first one has the white space before it too. A word that does not fit on the line opens a
new one, and a word longer than a line is cut into pieces. Where styles are shown, each run of
characters of one style stands between escape codes. -/

namespace Bulletin.Console

/-- How a character is shown. -/
inductive Style where
  | plain
  | heading
  | source
  | destination
  | failure
  deriving DecidableEq, Inhabited, Repr

/-- The code that turns on a style, none for the plain one. -/
def Style.code? : Style → Option String
  | plain => none
  | heading => some "1;34"
  | source => some "33"
  | destination => some "95"
  | failure => some "31"

/-- A character with its style. -/
abbrev Cell := Char × Style

/-- A text in one style. -/
def styled (style : Style) (s : String) : List Cell := s.toList.map (·, style)

/-- Whether styles are shown, given whether the console is a terminal, if that can be told. -/
def showsStyles (isTerminal : Option Bool) : Bool := isTerminal.getD false

/-- The width of a console. -/
def lineWidth : Nat := 80

/-- The cells that a piece takes. -/
def width (s : List Cell) : Nat := Text.width (s.map (·.1))

/-- Whether a cell is white space. -/
def isBlank (c : Cell) : Bool := Text.isBlank c.1

/-! ### Wrapping -/

/-- Whether a character is shown at all: bells, backspaces and the breaks that are no line feeds are
not. -/
def isShown (c : Cell) : Bool := !List.contains [7, 8, 11, 12, 13] c.1.toNat

/-- The lines of a text, cut at its line feeds. -/
def splitLines : List Cell → List (List Cell)
  | [] => [[]]
  | c :: r =>
    if c.1 = '\n' then [] :: splitLines r
    else
      match splitLines r with
      | [] => [[c]]
      | l :: ls => (c :: l) :: ls

/-- A line with its tabs as spaces up to the next multiple of eight; `column` cells come before. -/
def expandTabs (column : Nat) : List Cell → List Cell
  | [] => []
  | c :: r =>
    if c.1 = '\t' then
      let n := 8 - column % 8
      List.replicate n (' ', c.2) ++ expandTabs (column + n) r
    else c :: expandTabs (column + Text.charWidth c.1) r

/-- The words of a line, each with the white space after it. -/
def words : List Cell → List (List Cell)
  | [] => []
  | c :: r =>
    match words r with
    | [] => [[c]]
    | (d :: w) :: ws =>
      if isBlank c && !isBlank d then [c] :: (d :: w) :: ws else (c :: d :: w) :: ws
    | [] :: ws => [c] :: ws

/-- The words of a line, the first one with the white space before it. -/
def wordsFromStart (line : List Cell) : List (List Cell) :=
  match words line with
  | w :: v :: ws => if w.all isBlank then (w ++ v) :: ws else w :: v :: ws
  | ws => ws

/-- The pieces of a word of which each fits on a line; `used` cells are taken before. -/
def pieces (used : Nat) : List Cell → List (List Cell)
  | [] => [[]]
  | c :: r =>
    let n := Text.charWidth c.1
    if lineWidth < used + n then
      match pieces n r with
      | [] => [[], [c]]
      | p :: ps => [] :: (c :: p) :: ps
    else
      match pieces (used + n) r with
      | [] => [[c]]
      | p :: ps => (c :: p) :: ps

/-- The lines of words after the line begun so far. -/
def layWords (line : List Cell) : List (List Cell) → List (List Cell)
  | [] => [line]
  | w :: ws =>
    let n := Text.width (Text.trimEnd Text.isBlank (w.map (·.1)))
    if n + width line ≤ lineWidth then layWords (line ++ w) ws
    else
      let parts := if lineWidth < n then pieces 0 w else [w]
      let before := if line.isEmpty then [] else [line]
      before ++ parts.dropLast ++ layWords (parts.getLast?.getD []) ws

/-- A line without what does not fit after the cells used before. -/
def crop (used : Nat) : List Cell → List Cell
  | [] => []
  | c :: r =>
    let n := Text.charWidth c.1
    if lineWidth < used + n then [] else c :: crop (used + n) r

/-- The lines of a text on the console. -/
def wrap (text : List Cell) : List (List Cell) :=
  (splitLines (text.filter isShown)).flatMap fun line =>
    (layWords [] (wordsFromStart (expandTabs 0 line))).map (crop 0)

/-! ### Printing -/

/-- The runs of one style in a line. -/
def runs : List Cell → List (Style × List Char)
  | [] => []
  | (c, s) :: r =>
    match runs r with
    | [] => [(s, [c])]
    | (t, cs) :: rs => if s = t then (t, c :: cs) :: rs else (s, [c]) :: (t, cs) :: rs

/-- A run of one style as it is sent to the console. -/
def printRun (showStyles : Bool) (run : Style × List Char) : String :=
  let text := String.ofList run.2
  match run.1.code? with
  | some code => if showStyles then "\x1b[" ++ code ++ "m" ++ text ++ "\x1b[0m" else text
  | none => text

/-- A line as it is sent to the console. -/
def printLine (showStyles : Bool) (line : List Cell) : String :=
  String.join ((runs line).map (printRun showStyles)) ++ "\n"

/-- A text as it is sent to the console. -/
def print (showStyles : Bool) (text : List Cell) : String :=
  String.join ((wrap text).map (printLine showStyles))

end Bulletin.Console
