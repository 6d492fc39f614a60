import Bulletin.Markdown.Handed
import Bulletin.Proofs.Markdown.Typed

/-! # Well-formed tokens

A token may be well typed and yet not be known any more, once it is written as an object: a reference
that refers to nothing is taken for a link, a list that is not ordered has no start, and a token of no
known type with a known name is taken for another. Well-formed tokens are well typed, and they are
known in their objects.

* `Inline.isKnown`, `Block.isKnown`: tokens that are known in their objects.
* `Inline.isFormed`, `Block.isFormed`: well-formed tokens. -/

namespace Bulletin.Markdown

open Handed (InlineType BlockType)

/-! ### Tokens that are known in their objects -/

mutual

/-- Whether an inline token is still known in its object: it holds a text where its type has one, a
reference refers to something, and a token of no known type has a name that is not known. -/
def Inline.isKnown : Inline → Bool
  | .text raw => raw.isText
  | .code raw => raw.isText
  | .math raw => raw.isText
  | .html raw => raw.isText
  | .emphasis children => Inline.areKnown children
  | .strong children => Inline.areKnown children
  | .delete children => Inline.areKnown children
  | .link _ _ children => Inline.areKnown children
  | .linkReference key _ children => !key.isEmpty && Inline.areKnown children
  | .image _ _ children => Inline.areKnown children
  | .imageReference key _ children => !key.isEmpty && Inline.areKnown children
  | .unknown type raw children =>
    type.text?.any (fun name => (List.lookup name InlineType.table).isNone) && raw.isText &&
      Inline.areKnown children
  | _ => true

/-- Whether all of a row of inline tokens are still known in their objects. -/
def Inline.areKnown : List Inline → Bool
  | [] => true
  | t :: ts => Inline.isKnown t && Inline.areKnown ts

end

/-- Whether the inline tokens in a cell are still known in their objects. -/
def Cell.isKnown (c : Cell) : Bool := c.content.all Inline.areKnown

mutual

/-- Whether a block is still known in its object: so are the inline tokens in it, a list that is not
ordered starts nowhere, and a block of no known type has a name that is not known. -/
def Block.isKnown : Block → Bool
  | .heading _ children => Inline.areKnown children
  | .paragraph children => Inline.areKnown children
  | .quote children => Block.areKnown children
  | .list ordered start items => (ordered || start.isNull) && Block.itemsAreKnown items
  | .item children => Block.areKnown children
  | .table parts => parts.all fun p => p.rows.all fun cells => cells.all Cell.isKnown
  | .notes items => Block.notesAreKnown items
  | .unknown type => (BlockType.ofValue? type).isNone
  | _ => true

/-- Whether all of a row of blocks are still known in their objects. -/
def Block.areKnown : List Block → Bool
  | [] => true
  | b :: bs => Block.isKnown b && Block.areKnown bs

/-- Whether the blocks in the items of a list are still known in their objects. -/
def Block.itemsAreKnown : List (List Block) → Bool
  | [] => true
  | bs :: r => Block.areKnown bs && Block.itemsAreKnown r

/-- Whether the blocks in footnotes are still known in their objects. -/
def Block.notesAreKnown : List (String × List Block) → Bool
  | [] => true
  | (_, bs) :: r => Block.areKnown bs && Block.notesAreKnown r

end

/-! ### Well-formed tokens -/

/-- Whether an inline token is well typed and known in its object. -/
def Inline.isFormed (t : Inline) : Bool := t.isTyped && t.isKnown

/-- Whether a row of inline tokens is well typed and known in its objects. -/
def Inline.areFormed (ts : List Inline) : Bool := Inline.areTyped ts && Inline.areKnown ts

/-- Whether a cell is well typed and known in its object. -/
def Cell.isFormed (c : Cell) : Bool := c.isTyped && c.isKnown

/-- Whether a block is well typed and known in its object. -/
def Block.isFormed (b : Block) : Bool := b.isTyped && b.isKnown

/-- Whether a row of blocks is well typed and known in its objects. -/
def Block.areFormed (bs : List Block) : Bool := Block.areTyped bs && Block.areKnown bs

/-- Whether the items of a list are well typed and known in their objects. -/
def Block.itemsAreFormed (items : List (List Block)) : Bool :=
  Block.itemsAreTyped items && Block.itemsAreKnown items

/-- Whether footnotes are well typed and known in their objects. -/
def Block.notesAreFormed (items : List (String × List Block)) : Bool :=
  Block.notesAreTyped items && Block.notesAreKnown items

theorem and_exchange (a b c d : Bool) : (a && b && (c && d)) = (a && c && (b && d)) := by
  rw [Bool.and_assoc, Bool.and_assoc, Bool.and_left_comm b]

theorem Inline.areFormed_iff : ∀ {ts : List Inline},
    Inline.areFormed ts = true ↔ ∀ t ∈ ts, t.isFormed = true
  | [] => by simp [Inline.areFormed, Inline.areTyped, Inline.areKnown]
  | t :: ts => by
    have hts := @Inline.areFormed_iff ts
    rw [List.forall_mem_cons, ← hts, ← Bool.and_eq_true]
    unfold Inline.areFormed Inline.isFormed
    rw [Inline.areTyped, Inline.areKnown, and_exchange]

theorem Block.areFormed_cons (b : Block) (bs : List Block) :
    Block.areFormed (b :: bs) = (b.isFormed && Block.areFormed bs) :=
  and_exchange ..

theorem Block.isFormed_notes (items : List (String × List Block)) :
    (Block.notes items).isFormed = Block.notesAreFormed items := rfl

theorem Block.itemsAreFormed_cons (bs : List Block) (r : List (List Block)) :
    Block.itemsAreFormed (bs :: r) = (Block.areFormed bs && Block.itemsAreFormed r) :=
  and_exchange ..

theorem Block.notesAreFormed_cons (key : String) (bs : List Block)
    (r : List (String × List Block)) :
    Block.notesAreFormed ((key, bs) :: r) = (Block.areFormed bs && Block.notesAreFormed r) :=
  and_exchange ..

end Bulletin.Markdown
