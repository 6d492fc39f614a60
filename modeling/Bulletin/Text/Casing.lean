import Bulletin.Text.CasingTables

/-! # Letter case

Full lowering and raising of letters: a letter may become several characters, and a capital sigma
at the end of a word becomes the final small sigma. -/

namespace Bulletin.Text

/-- The small form of one character, sigma apart; the letters of ASCII need no table. -/
def lowerChar (c : Char) : List Char :=
  if c.toNat < 0x80 then [c.toLower]
  else if c = 'İ' then ['i', '\u0307']
  else [Char.ofNat (Shift.move lowerShifts c.toNat)]

/-- Whether a capital sigma ends a word: the last counted character before it is cased, and the
first one after it is not. The text before it is given from its end. -/
def isFinalSigma (before after : List Char) : Bool :=
  let counted := fun c : Char => !caseIgnorable.contains c.toNat
  let cased := fun c : Char => casedCharacters.contains c.toNat
  ((before.find? counted).elim false cased) && !((after.find? counted).elim false cased)

/-- The small form of a text that follows a given one, which is written from its end. -/
def lowerAfter (before : List Char) : List Char → List Char
  | [] => []
  | c :: r =>
    (if c = 'Σ' then [if isFinalSigma before r then 'ς' else 'σ'] else lowerChar c) ++
      lowerAfter (c :: before) r

/-- The small form of a text. -/
def lower (s : String) : String := .ofList (lowerAfter [] s.toList)

/-- The capital form of one character. -/
def upperChar (c : Char) : List Char :=
  match upperExpansions.find? (·.1 == c.toNat) with
  | some (_, cs) => cs.map Char.ofNat
  | none => [Char.ofNat (Shift.move upperShifts c.toNat)]

/-- The capital form of a text. -/
def upper (s : String) : String := .ofList (s.toList.flatMap upperChar)

end Bulletin.Text
