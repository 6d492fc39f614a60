import Bulletin.Text.Blank
import Bulletin.Text.Casing

/-! # Labels of references

A reference names its definition by a label between brackets. Two labels name the same definition
if they have the same key, in which runs of white space are one space and letters have one case. -/

namespace Bulletin.Markdown

/-- The key of a label. -/
def labelKey (label : List Char) : String :=
  let words := (Text.wordsBy Text.isBlank label).map String.ofList
  Text.upper (Text.lower (" ".intercalate words))

/-- The longest start of a text without brackets, a backslash guarding the character after it, and
the rest; `count` bounds the number of steps. A guarded line feed ends the label. -/
def spanLabel (stops : Char → Bool) : (count : Nat) → List Char → List Char × List Char
  | 0, s => ([], s)
  | _ + 1, [] => ([], [])
  | count + 1, c :: r =>
    if c = '\\' then
      match r with
      | d :: r' =>
        if d = '\n' then ([], c :: r)
        else
          let (label, rest) := spanLabel stops count r'
          (c :: d :: label, rest)
      | [] => ([], [c])
    else if c = '[' || c = ']' || stops c then ([], c :: r)
    else
      let (label, rest) := spanLabel stops count r
      (c :: label, rest)

/-- The number of characters that a label may have. -/
def labelLimit : Nat := 500

/-- A label that starts a text and ends at a closing bracket, and the text after that bracket. -/
def label? (s : List Char) : Option (List Char × List Char) :=
  match spanLabel (fun _ => false) labelLimit s with
  | (label, ']' :: rest) => some (label, rest)
  | _ => none

/-- A label of a footnote, which has no white space and is not empty. -/
def noteLabel? (s : List Char) : Option (List Char × List Char) :=
  match spanLabel Text.isBlank labelLimit s with
  | (c :: label, ']' :: rest) => some (c :: label, rest)
  | _ => none

/-- Whether a text as a whole can be a label. -/
def isLabel (s : List Char) : Bool := (spanLabel (fun _ => false) labelLimit s).2.isEmpty

end Bulletin.Markdown
