import Bulletin.Text.Blank
import Bulletin.Text.Ranges
import Bulletin.Text.EntityTable

/-! # Character references

A character reference is `&name;`, `&#number;` or `&#xnumber;`. Only one that ends in a semicolon
counts; an unknown name gives way to the longest known name that starts it. -/

namespace Bulletin.Text

/-- The named character references. -/
def entities : List (String × List Nat) := namedExpansions entityText

/-- What a name stands for. -/
def entity? (name : List Char) : Option (List Char) :=
  (entities.find? (·.1 == String.ofList name)).map fun p => p.2.map Char.ofNat

/-- The characters that the numbers 0x80 to 0x9F stand for, 0 for the five without one. -/
def legacyControls : List Nat :=
  [0x20AC, 0x81, 0x201A, 0x0192, 0x201E, 0x2026, 0x2020, 0x2021, 0x02C6, 0x2030, 0x0160, 0x2039,
    0x0152, 0x8D, 0x017D, 0x8F, 0x90, 0x2018, 0x2019, 0x201C, 0x201D, 0x2022, 0x2013, 0x2014,
    0x02DC, 0x2122, 0x0161, 0x203A, 0x0153, 0x9D, 0x017E, 0x0178]

/-- What a number stands for: nothing if it is a control or a noncharacter. -/
def numbered (n : Nat) : List Char :=
  if n = 0 then ['\uFFFD']
  else if n = 0x0D then ['\r']
  else if 0x80 ≤ n && n ≤ 0x9F then [Char.ofNat (legacyControls.getD (n - 0x80) n)]
  else if (0xD800 ≤ n && n ≤ 0xDFFF) || n > 0x10FFFF then ['\uFFFD']
  else if n < 9 || n == 0x0B || (0x0E ≤ n && n < 0x20) || n == 0x7F || (0xFDD0 ≤ n && n ≤ 0xFDEF) ||
      n % 0x10000 ≥ 0xFFFE then []
  else [Char.ofNat n]

/-- The value of a hexadecimal digit. -/
def hexValue? (c : Char) : Option Nat :=
  if '0' ≤ c && c ≤ '9' then some (c.toNat - 48)
  else if 'a' ≤ c && c ≤ 'f' then some (c.toNat - 87)
  else if 'A' ≤ c && c ≤ 'F' then some (c.toNat - 55)
  else none

/-- The number that digits write in a base. -/
def ofDigits (base : Nat) (ds : List Char) : Nat :=
  ds.foldl (fun n c => base * n + (hexValue? c).getD 0) 0

/-- What the longest known name that starts `name` stands for, and the rest of `name`; the first
`k` characters are tried first. A name has at least two characters. -/
def longestEntity? (name : List Char) : Nat → Option (List Char)
  | 0 => none
  | k + 1 =>
    if k + 1 < 2 then none
    else
      match entity? (name.take (k + 1)) with
      | some cs => some (cs ++ name.drop (k + 1))
      | none => longestEntity? name k

/-- A character that a name cannot hold. -/
def endsName (c : Char) : Bool := ['\t', '\n', '\x0C', ' ', '<', '&', '#', ';'].contains c

/-- The reference after an ampersand: what it stands for, and its length with the semicolon. -/
def reference? (s : List Char) : Option (List Char × Nat) :=
  let closed := fun (k : Nat) (digits : List Char) (cs : List Char) =>
    if (s.drop (k + digits.length)).head? = some ';' then some (cs, k + digits.length + 1) else none
  match s with
  | '#' :: r =>
    let decimal := r.takeWhile fun c => '0' ≤ c && c ≤ '9'
    if decimal.isEmpty then
      match r with
      | x :: h =>
        if x = 'x' || x = 'X' then
          let hex := h.takeWhile fun c => (hexValue? c).isSome
          if hex.isEmpty then none else closed 2 hex (numbered (ofDigits 16 hex))
        else none
      | [] => none
    else if decimal.length ≤ 7 then closed 1 decimal (numbered (ofDigits 10 decimal))
    else none
  | _ =>
    let name := s.takeWhile (!endsName ·)
    if name.isEmpty || name.length > 32 then none
    else
      closed 0 name <|
        (entity? (name ++ [';'])).getD <|
          (longestEntity? (name ++ [';']) name.length).getD ('&' :: name ++ [';'])

/-- A text with its character references replaced, where the next `skip` characters belong to a
reference that has been replaced. -/
def unescapeFrom (skip : Nat) : List Char → List Char
  | [] => []
  | c :: r =>
    if skip > 0 then unescapeFrom (skip - 1) r
    else if c = '&' then
      match reference? r with
      | some (cs, k) => cs ++ unescapeFrom k r
      | none => c :: unescapeFrom 0 r
    else c :: unescapeFrom 0 r

/-- A text with its character references replaced. -/
def unescapeEntities (s : List Char) : List Char := unescapeFrom 0 s

end Bulletin.Text
