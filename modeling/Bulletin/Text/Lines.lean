/-! # Lines of a text

A line ends at a line feed, a carriage return or both together, at a vertical tab, a form feed, one
of the separators U+001C to U+001E, U+0085, U+2028 or U+2029. A break at the end of a text opens no
further line. The main fact is `concat_linesWithBreaks`: the lines with their breaks make up the
text again. -/

namespace Bulletin.Text

/-- A character that ends a line. -/
def isLineBreak (c : Char) : Bool :=
  let n := c.toNat
  (0x0A ≤ n && n ≤ 0x0D) || (0x1C ≤ n && n ≤ 0x1E) || n == 0x85 || n == 0x2028 || n == 0x2029

/-- The lines of a text, each with the break that ends it; the last may have none. -/
def linesWithBreaks : List Char → List (List Char × List Char)
  | [] => []
  | '\r' :: '\n' :: r => ([], ['\r', '\n']) :: linesWithBreaks r
  | c :: r =>
    if isLineBreak c then ([], [c]) :: linesWithBreaks r
    else
      match linesWithBreaks r with
      | [] => [([c], [])]
      | (l, b) :: ls => (c :: l, b) :: ls

/-- The lines of a text without their breaks. -/
def splitLines (s : List Char) : List (List Char) := (linesWithBreaks s).map (·.1)

/-- A text with its carriage returns, and those with a line feed after them, as line feeds. -/
def normalizeBreaks : List Char → List Char
  | '\r' :: '\n' :: r => '\n' :: normalizeBreaks r
  | '\r' :: r => '\n' :: normalizeBreaks r
  | c :: r => c :: normalizeBreaks r
  | [] => []

/-- The lines with their breaks make up the text. -/
theorem concat_linesWithBreaks (s : List Char) :
    ((linesWithBreaks s).map fun p => p.1 ++ p.2).flatten = s := by
  fun_induction linesWithBreaks s with
  | case1 => rfl
  | case2 r ih => simp [ih]
  | case3 c r _ h ih => simp [ih]
  | case4 c r _ h hr ih => simp [hr] at ih; simp [← ih]
  | case5 c r _ h l b ls hr ih => simp [hr] at ih; simp [← ih]

/-- No line has a character that ends lines. -/
theorem isLineBreak_of_mem_linesWithBreaks (s : List Char) :
    ∀ p ∈ linesWithBreaks s, ∀ c ∈ p.1, isLineBreak c = false := by
  fun_induction linesWithBreaks s with
  | case1 => simp
  | case2 r ih => simpa using ih
  | case3 c r _ h ih => simpa using ih
  | case4 c r _ h hr ih => simpa using h
  | case5 c r _ h l b ls hr ih =>
    rw [hr] at ih
    simp only [List.forall_mem_cons] at ih ⊢
    exact ⟨⟨by simpa using h, ih.1⟩, ih.2⟩

theorem isLineBreak_of_mem_splitLines {s l : List Char} (h : l ∈ splitLines s) :
    ∀ c ∈ l, isLineBreak c = false := by
  obtain ⟨p, hp, rfl⟩ := List.mem_map.1 h
  exact isLineBreak_of_mem_linesWithBreaks s p hp

end Bulletin.Text
