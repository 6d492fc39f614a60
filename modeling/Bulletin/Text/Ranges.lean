/-! # Sorted code point ranges

A class of characters is a sorted list of ranges of code points. A table of ranges is written as
text, one `first-last` or single code point a word in hexadecimal, and looked up by bisection. -/

namespace Bulletin.Text

/-- The number that hexadecimal digits write; capitals only. -/
def ofHex (s : String) : Nat :=
  s.toList.foldl (fun n c => 16 * n + (if c.isDigit then c.toNat - 48 else c.toNat - 55)) 0

/-- The rows of a table as one text. -/
def rows (lines : List String) : String := " ".intercalate lines

/-- Sorted, disjoint ranges of code points, each with its first and its last member. -/
structure Ranges where
  bounds : Array (Nat × Nat)

namespace Ranges

/-- The ranges that a table writes. -/
def ofText (s : String) : Ranges :=
  ⟨((s.splitOn " ").map fun w =>
    match w.splitOn "-" with
    | [a, b] => (ofHex a, ofHex b)
    | _ => (ofHex w, ofHex w)).toArray⟩

/-- Bisection between the indices `lo` and `hi`. -/
def search (a : Array (Nat × Nat)) (n lo hi : Nat) : Bool :=
  if lo < hi then
    match a[(lo + hi) / 2]? with
    | none => false
    | some (x, y) =>
      if n < x then search a n lo ((lo + hi) / 2)
      else if y < n then search a n ((lo + hi) / 2 + 1) hi
      else true
  else false
termination_by hi - lo

/-- Whether a code point lies in one of the ranges. -/
def contains (r : Ranges) (n : Nat) : Bool := search r.bounds n 0 r.bounds.size

end Ranges

/-- A run of characters, every one or every second from `first` to `last`, that a case mapping
moves by the same distance. -/
structure Shift where
  first : Nat
  last : Nat
  step : Nat
  up : Bool
  distance : Nat

namespace Shift

/-- A run written `first..last/step+distance`, with `-` for a distance downward. -/
def ofWord (w : String) : Option Shift :=
  match w.splitOn ".." with
  | [a, r] =>
    match r.splitOn "/" with
    | [b, d] =>
      let up := d.contains '+'
      match d.splitOn (if up then "+" else "-") with
      | [s, k] => some ⟨ofHex a, ofHex b, ofHex s, up, ofHex k⟩
      | _ => none
    | _ => none
  | _ => none

/-- The runs that a table writes. -/
def ofText (s : String) : List Shift := (s.splitOn " ").filterMap ofWord

/-- Whether a run moves the code point `n`. -/
def covers (s : Shift) (n : Nat) : Bool :=
  s.first ≤ n && n ≤ s.last && (n - s.first) % s.step == 0

/-- Where the first run that covers `n` moves it, `n` itself if none does. -/
def move (table : List Shift) (n : Nat) : Nat :=
  match table.find? (·.covers n) with
  | some s => if s.up then n + s.distance else n - s.distance
  | none => n

end Shift

/-- A table of words `name=code+code`, each with the code points it stands for. -/
def namedExpansions (s : String) : List (String × List Nat) :=
  (s.splitOn " ").filterMap fun w =>
    match w.splitOn "=" with
    | [a, b] => some (a, (b.splitOn "+").map ofHex)
    | _ => none

/-- A table of words `code=code+code`. -/
def expansionsOfText (s : String) : List (Nat × List Nat) :=
  (namedExpansions s).map fun p => (ofHex p.1, p.2)

end Bulletin.Text
