import Bulletin.Text.Blank
import Bulletin.Text.Letters

/-! # Source lines

A text is read as a list of lines without their line feeds. A line that continues a paragraph
without the mark of the container around it is lazy; it can only continue that paragraph. -/

namespace Bulletin.Markdown

/-- A line of a text. -/
structure SourceLine where
  text : List Char
  isLazy : Bool := false
  deriving Repr

/-- The lines of a text. -/
abbrev Source := List SourceLine

namespace Source

/-- The lines of a text whose line breaks are line feeds; the last break opens no further line. -/
def ofText (s : List Char) : Source :=
  let pieces := Text.splitAtChar '\n' s
  (if pieces.getLast? = some [] then pieces.dropLast else pieces).map (⟨·, false⟩)

/-- The text of lines, each with a line feed at its end. -/
def text (lines : Source) : List Char := lines.flatMap fun l => l.text ++ ['\n']

end Source

/-! ### Indentation -/

/-- The number of spaces at the start of a line. -/
def indentOf (l : List Char) : Nat := (l.takeWhile (· = ' ')).length

/-- A line without its spaces at the start, if these are at most `n`. -/
def within? (n : Nat) (l : List Char) : Option (List Char) :=
  if indentOf l ≤ n then some (l.drop (indentOf l)) else none

/-- A line with a tab after at most three spaces at its start written as spaces, `fill` of them
after that many spaces. -/
def expandTab (fill : Nat → Nat) (l : List Char) : List Char :=
  let n := indentOf l
  match l.drop n with
  | '\t' :: r => if n ≤ 3 then List.replicate (n + fill n) ' ' ++ r else l
  | _ => l

/-- A line with a leading tab filled up to `width` columns. -/
def expandTo (width : Nat) (l : List Char) : List Char := expandTab (width - ·) l

/-- A line with a leading tab as four spaces. -/
def expandFour (l : List Char) : List Char := expandTab (fun _ => 4) l

/-- A line without at most `n` spaces at its start. -/
def dropSpaces (n : Nat) (l : List Char) : List Char := l.drop (min n (indentOf l))

/-! ### Classes of lines -/

/-- A line of white space. -/
def isBlankLine (l : List Char) : Bool :=
  l.all fun c => c = ' ' || c = '\t' || c = '\x0b' || c = '\x0c'

/-- A space or a tab. -/
def isSpaceOrTab (c : Char) : Bool := c = ' ' || c = '\t'

/-- A line of indented code: four spaces or a tab, and something after them. -/
def isIndentedCode (l : List Char) : Bool :=
  !isBlankLine l &&
    (indentOf l ≥ 4 ||
      match l.drop (indentOf l) with
      | '\t' :: _ => true
      | _ => false)

/-- A line that divides a text: three or more of one mark, with spaces between and after them. -/
def isThematicBreak (limit : Nat) (l : List Char) : Bool :=
  match within? limit l with
  | some (c :: r) =>
    (c = '-' || c = '_' || c = '*') && r.all (fun d => d = c || isSpaceOrTab d) && 2 ≤ r.count c
  | _ => false

/-- The level of the heading that a line of equals signs or hyphens makes of the paragraph before
it. -/
def underlineLevel? (l : List Char) : Option Nat :=
  match within? 3 (Text.trimEnd isSpaceOrTab l) with
  | some r =>
    if !r.isEmpty && r.all fun c => c = '=' || c = '-' then
      some (if r.getLast? = some '=' then 1 else 2)
    else none
  | none => none

/-- The level and the text of a heading with number signs. -/
def heading? (limit : Nat) (l : List Char) : Option (Nat × List Char) := do
  let r ← within? limit l
  let (marks, rest) := r.span (· = '#')
  if marks.isEmpty || marks.length > 6 then none
  else if rest.isEmpty || rest.head?.any isSpaceOrTab then some (marks.length, rest) else none

/-- The opening of a fenced block: its indentation, its mark, the number of marks, and what is
written after them. -/
structure Fence where
  indent : Nat
  mark : Char
  length : Nat
  info : List Char
  deriving Repr

/-- The fence at the start of a line. -/
def fence? (limit : Nat) (l : List Char) : Option Fence := do
  let r ← within? limit l
  let c ← r.head?
  let (marks, rest) := r.span (· = c)
  if (c = '`' || c = '~') && 3 ≤ marks.length then
    some ⟨indentOf l, c, marks.length, rest.dropWhile isSpaceOrTab⟩
  else none

/-- Whether a fence opens a block: backticks do not if another one is written after them. -/
def Fence.isValid (f : Fence) : Bool := !(f.mark = '`' && f.info.contains '`')

/-- Whether a line closes the block of a fence. -/
def Fence.isClosedBy (f : Fence) (l : List Char) : Bool :=
  match within? 3 l with
  | some r =>
    let (marks, rest) := r.span (· = f.mark)
    f.length ≤ marks.length && rest.all isSpaceOrTab
  | none => false

/-- What follows the mark of a quotation. -/
def quoted? (limit : Nat) (l : List Char) : Option (List Char) :=
  match within? limit l with
  | some ('>' :: r) => some r
  | _ => none

/-! ### List items -/

/-- The numbers of list items, which have at most nine digits. -/
abbrev ItemNumber := Fin 1_000_000_000

/-- The start of a list item: its indentation, the characters of its mark, of which the last one
tells lists apart, its number if it has one, and the text after the mark. -/
structure ItemStart where
  indent : Nat
  mark : List Char
  number : Option ItemNumber
  text : List Char
  deriving Repr

/-- The character that tells the lists of two items apart. -/
def ItemStart.bullet (i : ItemStart) : Char := i.mark.getLast?.getD '-'

/-- The columns of a list item up to the end of its mark. -/
def ItemStart.width (i : ItemStart) : Nat := i.indent + i.mark.length

/-- The number that at most nine decimal digits write. -/
def digitsValue (ds : List Char) : ItemNumber :=
  Fin.ofNat _ (ds.foldl (fun n c => 10 * n + (Text.decimalDigit? c).getD 0) 0)

/-- The start of a list item in a line. -/
def itemStart? (limit : Nat) (l : List Char) : Option ItemStart := do
  let r ← within? limit l
  let mk := fun (mark : List Char) (number : Option ItemNumber) (rest : List Char) =>
    if rest.isEmpty || rest.head?.any isSpaceOrTab then some ⟨indentOf l, mark, number, rest⟩
    else none
  let (digits, rest) := r.span fun c => (Text.decimalDigit? c).isSome
  if digits.isEmpty then
    match r with
    | c :: rest => if c = '*' || c = '+' || c = '-' then mk [c] none rest else none
    | [] => none
  else if digits.length > 9 then none
  else
    match rest with
    | c :: rest =>
      if c = '.' || c = ')' then mk (digits ++ [c]) (some (digitsValue digits)) rest else none
    | [] => none

end Bulletin.Markdown
