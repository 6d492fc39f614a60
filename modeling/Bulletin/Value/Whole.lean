import Bulletin.Text.Blank
import Bulletin.Text.Letters
import Bulletin.Value.Basic

/-! # Values read as whole numbers

A number loses what is after its point; a text may have white space around it, a sign, decimal
digits of any script, and single underscores between them. There is a limit to the digits. -/

namespace Bulletin.Value

/-- White space around the text of a whole number; the four separators are none. -/
def isMargin (c : Char) : Bool := Text.isBlank c && !(0x1C ≤ c.toNat && c.toNat ≤ 0x1F)

/-- The digits at the start of a text, with single underscores between them, and the rest of the
text; none where there is no digit or an underscore stands elsewhere. The last character read is a
digit if `afterDigit`. -/
def leadingDigits? (afterDigit : Bool) : List Char → Option (List Nat × List Char)
  | [] => if afterDigit then some ([], []) else none
  | c :: r =>
    match Text.decimalDigit? c with
    | some d => (leadingDigits? true r).map fun (ds, rest) => (d :: ds, rest)
    | none =>
      if !afterDigit then none
      else if c = '_' then leadingDigits? false r
      else some ([], c :: r)

/-- The number that the text `digits` writes, which is a text `s` without its sign. -/
def wholeOfDigits (s : String) (digits : List Char) : Except NotWhole Nat :=
  match leadingDigits? false digits with
  | none => .error (.text s)
  | some (ds, rest) =>
    if digitLimit < ds.length then .error (.excess ds.length)
    else if rest.isEmpty then .ok (ds.foldl (fun n d => 10 * n + d) 0)
    else .error (.text s)

/-- The whole number that a text writes. -/
def wholeOfText (s : String) : Except NotWhole Int :=
  match Text.trim isMargin s.toList with
  | '-' :: r => (wholeOfDigits s r).map fun n => -(n : Int)
  | '+' :: r => (wholeOfDigits s r).map fun n => (n : Int)
  | r => (wholeOfDigits s r).map fun n => (n : Int)

/-- A value read as a whole number. -/
def toWhole : Value → Except NotWhole Int
  | bool b => .ok (if b then 1 else 0)
  | int n => .ok n
  | float .nan => .error .notANumber
  | float (.infinite _) => .error .infinite
  | float x => .ok (x.truncate?.getD 0)
  | str s => wholeOfText s
  | v => .error (.otherType v.typeName)

end Bulletin.Value
