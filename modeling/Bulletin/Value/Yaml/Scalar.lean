import Bulletin.Text.Entity
import Bulletin.Value.Basic

/-! # Plain scalars of YAML

What a text without quotes means: nothing, a truth value, a whole number in one of five bases, a
number with a point, or itself. A date or a time is kept as its text. -/

namespace Bulletin.Yaml

open Number (Binary64)

/-- The words for truth values. -/
def truthWords : List (String × Bool) :=
  [("yes", true), ("Yes", true), ("YES", true), ("no", false), ("No", false), ("NO", false),
    ("true", true), ("True", true), ("TRUE", true), ("false", false), ("False", false),
    ("FALSE", false), ("on", true), ("On", true), ("ON", true), ("off", false), ("Off", false),
    ("OFF", false)]

/-- The words for nothing. -/
def nullWords : List String := ["", "~", "null", "Null", "NULL"]

/-- The words for infinity after a sign. -/
def infinityWords : List String := [".inf", ".Inf", ".INF"]

/-- The words for what is no number. -/
def nanWords : List String := [".nan", ".NaN", ".NAN"]

/-- The sign of a number, true for a minus, and the text after it. -/
def splitSign : List Char → Bool × List Char
  | '-' :: r => (true, r)
  | '+' :: r => (false, r)
  | s => (false, s)

/-- A number with a sign. -/
def signed (negative : Bool) (n : Nat) : Int := if negative then -(n : Int) else n

/-- Whether a text has digits of a base only, or underscores, and is not empty. -/
def areDigits (base : Nat) (s : List Char) : Bool :=
  !s.isEmpty && s.all fun c => c = '_' || (Text.hexValue? c).any (· < base)

/-- The number that digits write, whatever the underscores between them. -/
def ofDigits (base : Nat) (s : List Char) : Nat := Text.ofDigits base (s.filter (· ≠ '_'))

/-- Whether digits start with a digit that is no zero. -/
def startsAboveZero (s : List Char) : Bool := s.head?.any fun c => '1' ≤ c && c ≤ '9'

/-- Whether a text is a part of a number in base sixty: a number up to 59. -/
def isSixtieth (s : List Char) : Bool :=
  s.all Char.isDigit && (s.length = 1 || (s.length = 2 && s.head?.any (· ≤ '5')))

/-- The number that parts in base sixty write. -/
def ofSixtieths (parts : List (List Char)) : Nat :=
  parts.foldl (fun n p => 60 * n + ofDigits 10 p) 0

/-- The whole number that a text without its sign writes. -/
def whole? (s : List Char) : Option Nat :=
  match s with
  | ['0'] => some 0
  | '0' :: 'b' :: r => if areDigits 2 r then some (ofDigits 2 r) else none
  | '0' :: 'x' :: r => if areDigits 16 r then some (ofDigits 16 r) else none
  | '0' :: r => if areDigits 8 r then some (ofDigits 8 r) else none
  | _ =>
    match Text.splitAtChar ':' s with
    | a :: parts =>
      if startsAboveZero a && areDigits 10 a && parts.all isSixtieth then
        some (ofSixtieths (a :: parts))
      else none
    | [] => none

/-- The exponent that a text writes, zero if it is empty: a letter, a sign and digits. -/
def exponent? (s : List Char) : Option Int :=
  match s with
  | [] => some 0
  | e :: sign :: r =>
    if (e = 'e' || e = 'E') && (sign = '-' || sign = '+') && !r.isEmpty && r.all Char.isDigit then
      some (signed (sign = '-') (Text.ofDigits 10 r))
    else none
  | _ => none

/-- The number with a point that a text without its sign writes; its part before the point may be
missing if the sign is, and may be in base sixty. -/
def fractional? (negative hasSign : Bool) (s : List Char) : Option Binary64 :=
  match s.span (· ≠ '.') with
  | (before, '.' :: r) =>
    let (after, power) := r.span fun c => c.isDigit || c = '_'
    let fraction := after.filter (· ≠ '_')
    let number := fun (n : Nat) (e : Int) =>
      Binary64.ofDecimal negative (n * Nat.pow 10 fraction.length + Text.ofDigits 10 fraction)
        (e - fraction.length)
    match Text.splitAtChar ':' before with
    | [a] =>
      let starts := if a.isEmpty then !hasSign && after.head?.any Char.isDigit
        else a.head?.any Char.isDigit && areDigits 10 a
      if starts then (exponent? power).map (number (ofDigits 10 a)) else none
    | a :: parts =>
      if a.head?.any Char.isDigit && areDigits 10 a && parts.all isSixtieth && power.isEmpty then
        some (number (ofSixtieths (a :: parts)) 0)
      else none
    | [] => none
  | _ => none

/-- The number that a text writes. -/
def number? (s : List Char) : Option Value :=
  let (negative, r) := splitSign s
  match whole? r with
  | some n => some (.int (signed negative n))
  | none =>
    if infinityWords.contains (.ofList r) then some (.float (.infinite negative))
    else if nanWords.contains (.ofList s) then some (.float .nan)
    else (fractional? negative (r.length < s.length) r).map .float

/-- What a plain scalar means. -/
def resolve (s : String) : Value :=
  if nullWords.contains s then .null
  else
    match truthWords.lookup s with
    | some b => .bool b
    | none => (number? s.toList).getD (.str s)

end Bulletin.Yaml
