import Bulletin.Text.Printable

/-! # Quoted texts

A text in a message is shown between quotes: single ones, or double ones if it holds a single
quote and no double one. What would not print is escaped. -/

namespace Bulletin.Text

/-- The hexadecimal digits of a number, in small letters and with at least `width` of them. -/
def hexDigits (width n : Nat) : List Char :=
  let ds := Nat.toDigits 16 n
  List.replicate (width - ds.length) '0' ++ ds

/-- One character between the quotes `q`. -/
def quoteChar (q c : Char) : List Char :=
  if c = q || c = '\\' then ['\\', c]
  else if c = '\n' then ['\\', 'n']
  else if c = '\r' then ['\\', 'r']
  else if c = '\t' then ['\\', 't']
  else if isPrintable c then [c]
  else if c.toNat ≤ 0xFF then ['\\', 'x'] ++ hexDigits 2 c.toNat
  else if c.toNat ≤ 0xFFFF then ['\\', 'u'] ++ hexDigits 4 c.toNat
  else ['\\', 'U'] ++ hexDigits 8 c.toNat

/-- The quote that surrounds a text. -/
def quoteFor (s : List Char) : Char := if s.contains '\'' && !s.contains '"' then '"' else '\''

/-- A text between quotes. -/
def quoted (s : String) : String :=
  let q := quoteFor s.toList
  .ofList (q :: s.toList.flatMap (quoteChar q) ++ [q])

end Bulletin.Text
