import Bulletin.Markdown.Block.Leaf

/-! # Containers

Quotations and list items hold blocks of their own. Here the lines that belong to a container are
told from those after it, and its marks and indentation are taken off. A line without them can
still belong to it: it may lazily continue a paragraph, unless it starts another block. -/

namespace Bulletin.Markdown.Container

/-! ### Quotations -/

/-- A line of a quotation without its mark: a tab after the mark counts as three columns, and one
space after it goes. -/
def unquote (l : List Char) : List Char := dropSpaces 1 (expandTo 3 l)

/-- Whether a line ends a quotation in whose paragraph it might lazily stand. -/
def endsQuote (l : List Char) : Bool :=
  isBlankLine l || isThematicBreak 3 l || (fence? 3 l).any (·.isValid) ||
    (heading? 3 l).isSome || (itemStart? 3 l).isSome || Leaf.interruptsAsHtml l

/-- Whether the first line of a quotation starts a block that has no lazy lines. -/
def needsMarks (first : List Char) : Bool :=
  isBlankLine first || isIndentedCode first || (fence? 3 first).isSome

/-- The lines of a quotation after its first, and the lines after it. Marked lines belong to it;
others only if lazy lines are allowed and the last line is not blank. -/
def quoteLines (lazyAllowed : Bool) (afterBlank : Bool) : Source → Source × Source
  | [] => ([], [])
  | l :: ls =>
    match quoted? 3 l.text with
    | some r =>
      let inner := unquote r
      let (lines, rest) := quoteLines lazyAllowed (isBlankLine inner) ls
      ({ l with text := expandFour inner } :: lines, rest)
    | none =>
      if !lazyAllowed || afterBlank || endsQuote l.text then ([], l :: ls)
      else
        let (lines, rest) := quoteLines lazyAllowed false ls
        (⟨expandFour (expandTo 3 l.text), true⟩ :: lines, rest)

/-- The lines of the quotation that starts with a line, and the lines after it. -/
def quote? (l : SourceLine) (rest : Source) : Option (Source × Source) :=
  (quoted? 3 l.text).map fun r =>
    let first := unquote r
    let (lines, rest) := quoteLines (!needsMarks first) (isBlankLine first) rest
    ({ l with text := expandFour first } :: lines, rest)

/-! ### List items -/

/-- The first line of an item after its mark, if there is something in it, and the number of
columns by which the other lines of the item are indented. -/
def firstLine (i : ItemStart) : Option (List Char) × Nat :=
  let text := expandFour (expandTo 3 i.text)
  if text.all Text.isBlank then (none, i.width + 1)
  else
    let space := if indentOf text ≥ 5 then 1 else (text.takeWhile Text.isBlank).length
    (some (text.drop space), i.width + space)

/-- Whether a line, indented by at most so many columns, ends a list in whose last item it might
lazily stand. -/
def endsList (limit : Nat) (l : List Char) : Bool :=
  isThematicBreak limit l || (fence? limit l).any (·.isValid) || (heading? limit l).isSome ||
    (quoted? limit l).isSome || (Leaf.interruptsAsHtml l && indentOf l ≤ limit) ||
    (itemStart? limit l).isSome

/-- The indentation of a line that starts a block beside an item. -/
def breakLimit (width : Nat) : Nat := min 3 width

/-- The start of the next item of a list in a line. -/
def nextItem? (i : ItemStart) (l : List Char) : Option ItemStart :=
  if isThematicBreak (breakLimit i.width) l then none
  else (itemStart? (breakLimit i.width) l).filter (·.bullet = i.bullet)

/-- A line that continues an item, without its indentation, if it has it. -/
def continued? (columns : Nat) (l : List Char) : Option (List Char) :=
  let l := expandTo 4 l
  if columns ≤ indentOf l then some (expandFour (l.drop columns)) else none

/-- What the lines of an item are followed by: the next item of the list with the lines after its
first, or the lines after the list. -/
inductive Following where
  | item (i : ItemStart) (rest : Source)
  | none (rest : Source)

/-- The lines of an item after its first, and what follows them. An item whose first line is empty
may begin with one blank line only. -/
def itemLines (i : ItemStart) (columns : Nat) (empty afterBlank : Bool) :
    Source → Source × Following
  | [] => ([], .none [])
  | l :: ls =>
    if isBlankLine l.text then
      let (lines, following) := itemLines i columns empty true ls
      ({ l with text := [] } :: lines, following)
    else
      match continued? columns l.text with
      | some text =>
        if afterBlank && empty then ([], .none (l :: ls))
        else
          let (lines, following) := itemLines i columns false false ls
          ({ l with text } :: lines, following)
      | none =>
        match nextItem? i l.text with
        | some next => ([], .item next ls)
        | none =>
          if afterBlank || endsList (breakLimit i.width) l.text then ([], .none (l :: ls))
          else
            let (lines, following) := itemLines i columns false false ls
            (⟨expandTo 4 l.text, true⟩ :: lines, following)

/-- Lines without the blank ones at the end. -/
def trimBlankLines (lines : Source) : Source :=
  (lines.reverse.dropWhile fun l => l.text.all Text.isBlank).reverse

/-- The lines of an item, and what follows it. -/
def item (i : ItemStart) (isLazy : Bool) (rest : Source) : Source × Following :=
  let (first, columns) := firstLine i
  let (lines, following) := itemLines i columns first.isNone false rest
  (trimBlankLines (first.toList.map (⟨·, isLazy⟩) ++ lines), following)

end Bulletin.Markdown.Container
