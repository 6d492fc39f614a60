/-! # Backslash escapes

A backslash before a punctuation character of ASCII guards that character, and goes. -/

namespace Bulletin.Markdown

/-- A punctuation character of ASCII. -/
def isPunctuation (c : Char) : Bool :=
  let n := c.toNat
  (0x21 ≤ n && n ≤ 0x2F) || (0x3A ≤ n && n ≤ 0x40) || (0x5B ≤ n && n ≤ 0x60) ||
    (0x7B ≤ n && n ≤ 0x7E)

/-- A text with its escapes resolved. -/
def unescape : List Char → List Char
  | '\\' :: c :: r => if isPunctuation c then c :: unescape r else '\\' :: unescape (c :: r)
  | c :: r => c :: unescape r
  | [] => []

/-- The run of escapes at the start of a text: the characters that it guards, and the rest. -/
def spanEscapes : List Char → List Char × List Char
  | '\\' :: c :: r =>
    if isPunctuation c then
      let (guarded, rest) := spanEscapes r
      (c :: guarded, rest)
    else ([], '\\' :: c :: r)
  | s => ([], s)

end Bulletin.Markdown
