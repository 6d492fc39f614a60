import Bulletin.Markdown.Token
import Bulletin.Text.Blank
import Bulletin.Text.Letters

/-! # Emphasis

Emphasis is marked by runs of asterisks or underscores. A run may open, close or do both, after the
characters around it. Runs are paired from left to right: one that may close looks back for the
nearest run that it may close, and what stands between them becomes emphasised, strongly if both
give two marks. Marks that find no partner are text. -/

namespace Bulletin.Markdown

/-- A run of delimiters: its full length, the marks that are left of it, and what it may do. -/
structure Run where
  mark : Char
  length : Nat
  left : Nat
  opens : Bool
  closes : Bool
  deriving DecidableEq, Repr

/-- A character that is neither white space nor a letter or numeral. -/
def isSymbol (c : Char) : Bool := !Text.isBlank c && !Text.isAlphanumeric c

/-- The run of a mark between two characters, none standing for the end of the text. -/
def Run.of (mark : Char) (length : Nat) (before after : Option Char) : Run :=
  let blank := fun c : Option Char => c.elim true Text.isBlank
  let symbol := fun c : Option Char => c.elim false isSymbol
  let left := !blank after && (!symbol after || blank before || symbol before)
  let right := !blank before && (!symbol before || blank after || symbol after)
  if mark = '_' then
    ⟨mark, length, length, left && (!right || symbol before), right && (!left || symbol after)⟩
  else ⟨mark, length, length, left, right⟩

/-- Whether one run may open what another closes. Two runs of which one can do both do not match
if their lengths add up to a multiple of three, unless both are multiples of three. -/
def Run.matchedBy (opener closer : Run) : Bool :=
  opener.opens && opener.mark == closer.mark && 0 < opener.left &&
    !((opener.closes || closer.opens) && (opener.length + closer.length) % 3 == 0 &&
      !(opener.length % 3 == 0 && closer.length % 3 == 0))

/-- A piece of a line of text: a token, or a run that may still find a partner. -/
inductive Piece where
  | token (t : Inline)
  | run (r : Run)
  deriving Repr

/-- The marks of a run that found no partner, as text. -/
def Run.text (r : Run) : Inline := .text (.str (.ofList (List.replicate r.left r.mark)))

/-- A piece as a token. -/
def Piece.settle : Piece → Inline
  | token t => t
  | run r => r.text

namespace Emphasis

/-- The pieces after the last run that a run closes, that run, and the pieces before it; the
pieces are given from the last one on. -/
def findOpener (closer : Run) : List Piece → Option (List Piece × Run × List Piece)
  | [] => none
  | .token t :: r => (findOpener closer r).map fun (after, rest) => (.token t :: after, rest)
  | .run o :: r =>
    if o.matchedBy closer then some ([], o, r)
    else (findOpener closer r).map fun (after, rest) => (.run o :: after, rest)

/-- The emphasis around tokens that `n` marks make. -/
def around (n : Nat) (children : List Inline) : Inline :=
  if n = 2 then .strong children else .emphasis children

/-- The pieces, from the last one on, after a run that may close has been paired as far as it
goes; `fuel` bounds the number of pairs. -/
def close (pieces : List Piece) (closer : Run) : (fuel : Nat) → List Piece
  | 0 => .run closer :: pieces
  | fuel + 1 =>
    if closer.left = 0 then .token closer.text :: pieces
    else
      match findOpener closer pieces with
      | none => .run closer :: pieces
      | some (after, opener, before) =>
        let n := if opener.left ≥ 2 && closer.left ≥ 2 then 2 else 1
        let inside := around n (after.reverse.map Piece.settle)
        close (.token inside :: .run { opener with left := opener.left - n } :: before)
          { closer with left := closer.left - n } fuel

/-- The pieces, from the last one on, with one more. -/
def push (pieces : List Piece) : Piece → List Piece
  | .token t => .token t :: pieces
  | .run r => if r.closes then close pieces r (r.length + 1) else .run r :: pieces

/-- A row of tokens in which adjacent texts are one and empty ones are gone. -/
def mergeTexts : List Inline → List Inline
  | [] => []
  | .text (.str s) :: r =>
    match mergeTexts r with
    | .text (.str t) :: r => .text (.str (s ++ t)) :: r
    | r => if s.isEmpty then r else .text (.str s) :: r
  | t :: r => t :: mergeTexts r

/-- Whether a piece is a run. -/
def isRun : Piece → Bool
  | .run _ => true
  | .token _ => false

/-- The tokens of a row of pieces. Texts are merged only if there are runs among them. -/
def resolve (pieces : List Piece) : List Inline :=
  let tokens := (pieces.foldl push []).reverse.map Piece.settle
  if pieces.any isRun then mergeTexts tokens else tokens

end Emphasis

end Bulletin.Markdown
