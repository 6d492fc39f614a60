import Bulletin.Text.WidthTables

/-! # Widths in terminal cells

A character takes no cell, one or two. The width of a text is the sum over its characters, except
that U+200D hides itself and the next character, and U+FE0F widens the narrow picture before it. -/

namespace Bulletin.Text

/-- The cells of one character. -/
def charWidth (c : Char) : Nat :=
  let n := c.toNat
  if (1 ≤ n && n < 32) || (127 ≤ n && n < 160) then 0
  else if 32 ≤ n && n < 127 then 1
  else if zeroWidth.contains n then 0
  else if doubleWidth.contains n then 2
  else 1

/-- The cells of a text after the character `last`, the one that a selector would widen. -/
def widthAfter (last : Option Char) : List Char → Nat
  | [] => 0
  | '\u200D' :: _ :: r => widthAfter last r
  | '\u200D' :: [] => 0
  | c :: r =>
    if c = '\uFE0F' then
      (if last.elim false (widenedBySelector.contains ·.toNat) then 1 else 0) + widthAfter none r
    else if charWidth c = 0 then widthAfter last r
    else charWidth c + widthAfter (some c) r

/-- The cells of a text. -/
def width (s : List Char) : Nat := widthAfter none s

end Bulletin.Text
