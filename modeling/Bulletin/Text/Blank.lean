/-! # Blanks, and trimming a text

The characters that count as white space, and the functions that take characters of a class off
the ends of a text or cut it into words. Texts are lists of characters here, so that what a
function keeps is said with the operations of lists. -/

namespace Bulletin.Text

/-- White space: the blanks of Unicode and the four separators U+001C to U+001F. -/
def isBlank (c : Char) : Bool :=
  let n := c.toNat
  (0x09 ≤ n && n ≤ 0x0D) || (0x1C ≤ n && n ≤ 0x20) || n == 0x85 || n == 0xA0 || n == 0x1680 ||
    (0x2000 ≤ n && n ≤ 0x200A) || n == 0x2028 || n == 0x2029 || n == 0x202F || n == 0x205F ||
    n == 0x3000

/-- The text without the characters of a class at its start. -/
def trimStart (p : Char → Bool) (s : List Char) : List Char := s.dropWhile p

/-- The text without the characters of a class at its end. -/
def trimEnd (p : Char → Bool) (s : List Char) : List Char := (s.reverse.dropWhile p).reverse

/-- The text without the characters of a class at either end. -/
def trim (p : Char → Bool) (s : List Char) : List Char := trimEnd p (trimStart p s)

/-- The text without the white space around it. -/
def strip (s : String) : String := .ofList (trim isBlank s.toList)

/-- The words of a text: its runs of characters outside a class. -/
def wordsBy (p : Char → Bool) : List Char → List (List Char)
  | [] => []
  | c :: r =>
    if p c then wordsBy p r
    else
      match r with
      | [] => [[c]]
      | d :: _ =>
        if p d then [c] :: wordsBy p r
        else
          match wordsBy p r with
          | [] => [[c]]
          | w :: ws => (c :: w) :: ws

/-- The words between white space. -/
def words (s : String) : List String := (wordsBy isBlank s.toList).map .ofList

/-- The text after a given start, if it has that start. -/
def after? : (start s : List Char) → Option (List Char)
  | [], s => some s
  | c :: cs, d :: s => if c = d then after? cs s else none
  | _ :: _, [] => none

/-- Whether a text starts with another. -/
def startsWith (s start : List Char) : Bool := (after? start s).isSome

theorem after?_eq_some : ∀ {u s t : List Char}, after? u s = some t ↔ s = u ++ t
  | [], s, t => by simp [after?]
  | c :: u, [], t => by simp [after?]
  | c :: u, d :: s, t => by
    rw [after?, List.cons_append, List.cons.injEq]
    by_cases h : c = d
    · rw [if_pos h, after?_eq_some]
      simp [h]
    · rw [if_neg h]
      simp [Ne.symm h]

/-- A text starts with another just if that is a prefix of it. -/
theorem startsWith_iff {s u : List Char} : startsWith s u = true ↔ u <+: s := by
  rw [startsWith, Option.isSome_iff_exists]
  constructor
  · rintro ⟨t, ht⟩
    exact ⟨t, (after?_eq_some.1 ht).symm⟩
  · rintro ⟨t, ht⟩
    exact ⟨t, after?_eq_some.2 ht.symm⟩

/-- Whether a text ends with another. -/
def endsWith (s stop : List Char) : Bool := startsWith s.reverse stop.reverse

/-- Texts in a row with a separator between them. -/
def joinWith (sep : List Char) : List (List Char) → List Char
  | [] => []
  | [a] => a
  | a :: b :: r => a ++ sep ++ joinWith sep (b :: r)

/-- The pieces of a text between the occurrences of a character. -/
def splitAtChar (c : Char) : List Char → List (List Char)
  | [] => [[]]
  | d :: r =>
    if d = c then [] :: splitAtChar c r
    else
      match splitAtChar c r with
      | [] => [[d]]
      | l :: ls => (d :: l) :: ls

end Bulletin.Text
