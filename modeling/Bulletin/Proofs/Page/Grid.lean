import Bulletin.Page.Grid
import Mathlib.Data.List.Chain
import Mathlib.Data.List.Infix
import Mathlib.Tactic.Common

/-! # The lines of a grid

A grid is a number of lines, each ended by a line feed (`draw_eq`). A line starts and ends with a
border and has no line feed inside, whatever the texts of the cells are and however wide they count
(`line_of_mem_gridLines`). So every line feed of a grid stands right after a border
(`isChain_draw`), and what has no character of the frame stands in a grid only where it stands in a
cell (`Frameless.infix_draw`). -/

namespace Bulletin.Proofs.Page.Grid

open Bulletin.Page.Grid

variable {width : List Char → Nat} {rows : List Row} {u : List Char}

/-! ### Texts in a row -/

theorem joinWith_append_sep {sep : List Char} : ∀ {ls : List (List Char)}, ls ≠ [] →
    Text.joinWith sep ls ++ sep = ls.flatMap (· ++ sep)
  | [a], _ => by simp [Text.joinWith]
  | a :: b :: ls, _ => by
    rw [Text.joinWith, List.flatMap_cons, List.append_assoc, joinWith_append_sep (by simp)]

theorem mem_joinWith {sep : List Char} {c : Char} : ∀ {ls : List (List Char)},
    c ∈ Text.joinWith sep ls → c ∈ sep ∨ ∃ l ∈ ls, c ∈ l
  | [a], h => Or.inr ⟨a, by simp, h⟩
  | a :: b :: ls, h => by
    rw [Text.joinWith, List.mem_append, List.mem_append] at h
    rcases h with (h | h) | h
    · exact Or.inr ⟨a, by simp, h⟩
    · exact Or.inl h
    · rcases mem_joinWith h with h | ⟨l, hl, h⟩
      · exact Or.inl h
      · exact Or.inr ⟨l, by simp [hl], h⟩

theorem infix_append_cons {a b : List Char} {c : Char} (hc : c ∉ u) (h : u <:+: a ++ c :: b) :
    u <:+: a ∨ u <:+: b := by
  obtain ⟨s, t, h⟩ := h
  rw [List.append_assoc] at h
  rcases List.append_eq_append_iff.1 h with ⟨m, rfl, hm⟩ | ⟨m, rfl, hm⟩
  · -- `u` starts in `a`; if it does not end there, it goes on over the character
    rcases List.append_eq_append_iff.1 hm with ⟨k, rfl, -⟩ | ⟨k, hk, hu⟩
    · exact Or.inl ⟨s, k, by simp⟩
    · cases k with
      | nil => exact Or.inl ⟨s, [], by simp [hk]⟩
      | cons d k => exact absurd (by simp [hk, (List.cons.inj hu).1]) hc
  · cases m with
    | nil =>
      cases u with
      | nil => exact Or.inl (List.nil_infix)
      | cons d u => exact absurd (by simp [(List.cons.inj hm).1]) hc
    | cons d m => exact Or.inr ⟨m, t, by simpa using (List.cons.inj hm).2.symm⟩

theorem infix_joinWith {c : Char} (hc : c ∉ u) : ∀ {ls : List (List Char)},
    u <:+: Text.joinWith [c] ls → u = [] ∨ ∃ l ∈ ls, u <:+: l
  | [], h => Or.inl (List.infix_nil.1 h)
  | [a], h => Or.inr ⟨a, by simp, h⟩
  | a :: b :: ls, h => by
    rw [Text.joinWith, List.append_assoc, List.singleton_append] at h
    rcases infix_append_cons hc h with h | h
    · exact Or.inr ⟨a, by simp, h⟩
    · rcases infix_joinWith hc h with h | ⟨l, hl, h⟩
      · exact Or.inl h
      · exact Or.inr ⟨l, by simp [hl], h⟩

/-! ### The lines of a text -/

theorem newline_notMem_of_mem_splitLines {s l : List Char} (h : l ∈ Text.splitLines s) : '\n' ∉ l :=
  fun hc => absurd (Text.isLineBreak_of_mem_splitLines h '\n' hc) (by decide)

theorem eq_nil_or_mem_of_mem_cellLines {s l : List Char} (h : l ∈ cellLines s) :
    l = [] ∨ l ∈ Text.splitLines s := by
  unfold cellLines at h
  split at h
  · exact Or.inl (List.mem_singleton.1 h)
  · exact Or.inr h

theorem eq_nil_or_exists_of_mem_fillRow {n : ℕ} {row : List (List Char)} {cell : List (List Char)}
    (hcell : cell ∈ fillRow n row) {l : List Char} (hl : l ∈ cell) :
    l = [] ∨ ∃ s ∈ row, l ∈ Text.splitLines s := by
  rw [fillRow, List.mem_append, List.mem_map] at hcell
  rcases hcell with ⟨s, hs, rfl⟩ | hcell
  · rcases eq_nil_or_mem_of_mem_cellLines hl with h | h
    · exact Or.inl h
    · exact Or.inr ⟨s, hs, h⟩
  · rw [List.eq_of_mem_replicate hcell] at hl
    exact Or.inl (List.mem_singleton.1 hl)

/-! ### The characters of a line -/

theorem mem_separator {ws : List ℕ} {c : Char} (h : c ∈ separator ws) : c = '+' ∨ c = '-' := by
  rw [separator, List.cons_append, List.mem_cons, List.mem_append, List.mem_singleton] at h
  rcases h with h | h | h
  · exact Or.inl h
  · rcases mem_joinWith h with h | ⟨l, hl, h⟩
    · exact Or.inl (List.mem_singleton.1 h)
    · obtain ⟨w, -, rfl⟩ := List.mem_map.1 hl
      exact Or.inr (List.eq_of_mem_replicate h)
  · exact Or.inl h

theorem mem_cellPiece {k w : ℕ} {cell : List (List Char)} {c : Char}
    (h : c ∈ cellPiece width k w cell) : c = ' ' ∨ ∃ l ∈ cell, c ∈ l := by
  simp only [cellPiece, List.cons_append, List.mem_cons, List.mem_append, List.mem_replicate,
    List.not_mem_nil, or_false] at h
  rcases h with h | (h | ⟨-, h⟩) | h
  · exact Or.inl h
  · rw [List.getD_eq_getElem?_getD] at h
    cases hk : cell[k]? with
    | none =>
      rw [hk] at h
      cases h
    | some l =>
      rw [hk] at h
      exact Or.inr ⟨l, List.mem_of_getElem? hk, h⟩
  · exact Or.inl h
  · exact Or.inl h

theorem mem_rowLine {ws : List ℕ} {row : Row} {k : ℕ} {c : Char}
    (h : c ∈ rowLine width ws row k) : c = '|' ∨ c = ' ' ∨ ∃ cell ∈ row, ∃ l ∈ cell, c ∈ l := by
  rw [rowLine, List.cons_append, List.mem_cons, List.mem_append, List.mem_singleton] at h
  rcases h with h | h | h
  · exact Or.inl h
  · rcases mem_joinWith h with h | ⟨piece, hpiece, h⟩
    · exact Or.inl (List.mem_singleton.1 h)
    · obtain ⟨i, hi, rfl⟩ := List.mem_iff_getElem.1 hpiece
      rw [List.getElem_zipWith] at h
      rcases mem_cellPiece h with h | hcell
      · exact Or.inr (Or.inl h)
      · exact Or.inr (Or.inr ⟨_, List.getElem_mem _, hcell⟩)
  · exact Or.inl h

/-- **A character of a line** is one that the frame puts there, or stands in a line of a cell. -/
theorem mem_of_mem_lines {n : ℕ} {line : List Char} {c : Char} (hl : line ∈ lines width rows n)
    (h : c ∈ line) :
    c ∈ ['+', '-', '|', ' '] ∨ ∃ row ∈ rows, ∃ cell ∈ row, ∃ l ∈ cell, c ∈ l := by
  have hseparator : ∀ {ws}, c ∈ separator ws → c ∈ ['+', '-', '|', ' '] := by
    intro ws h
    rcases mem_separator h with rfl | rfl
    · decide
    · decide
  rw [lines, List.mem_cons, List.mem_flatMap] at hl
  rcases hl with rfl | ⟨row, hrow, hl⟩
  · exact Or.inl (hseparator h)
  · rw [rowLines, List.mem_append, List.mem_map, List.mem_singleton] at hl
    rcases hl with ⟨k, -, rfl⟩ | rfl
    · rcases mem_rowLine h with rfl | rfl | hcell
      · exact Or.inl (by decide)
      · exact Or.inl (by decide)
      · exact Or.inr ⟨row, hrow, hcell⟩
    · exact Or.inl (hseparator h)

/-! ### Lines between borders -/

/-- The characters of the borders. -/
def borders : List Char := ['+', '|']

/-- **A line of a grid**: it stands between two borders and has no line feed. -/
structure Line (l : List Char) : Prop where
  starts : ∃ c ∈ borders, ∃ r, l = c :: r
  ends : ∃ c ∈ borders, ∃ r, l = r ++ [c]
  closed : '\n' ∉ l

/-- A row none of whose cells has a line feed in a line. -/
def Closed (row : Row) : Prop := ∀ cell ∈ row, ∀ l ∈ cell, '\n' ∉ l

theorem line_of_between {c : Char} (hc : c ∈ borders) {l : List Char} (hl : '\n' ∉ l) :
    Line (c :: l ++ [c]) := by
  refine ⟨⟨c, hc, l ++ [c], rfl⟩, ⟨c, hc, c :: l, rfl⟩, ?_⟩
  have hne : '\n' ≠ c := by rintro rfl; exact absurd hc (by decide)
  simp [hl, hne]

theorem line_separator (ws : List ℕ) : Line (separator ws) := by
  refine line_of_between (by decide) fun h => ?_
  have hmem : '\n' ∈ separator ws :=
    List.mem_cons_of_mem _ (List.mem_append_left _ h)
  rcases mem_separator hmem with h | h
  · exact absurd h (by decide)
  · exact absurd h (by decide)

theorem line_rowLine {row : Row} (h : Closed row) (ws : List ℕ) (k : ℕ) :
    Line (rowLine width ws row k) := by
  refine line_of_between (by decide) fun hc => ?_
  have hmem : '\n' ∈ rowLine width ws row k :=
    List.mem_cons_of_mem _ (List.mem_append_left _ hc)
  rcases mem_rowLine hmem with hc | hc | ⟨cell, hcell, l, hl, hc⟩
  · exact absurd hc (by decide)
  · exact absurd hc (by decide)
  · exact h cell hcell l hl hc

theorem line_of_mem_lines {n : ℕ} (h : ∀ row ∈ rows, Closed row) {l : List Char}
    (hl : l ∈ lines width rows n) : Line l := by
  rw [lines, List.mem_cons, List.mem_flatMap] at hl
  rcases hl with rfl | ⟨row, hrow, hl⟩
  · exact line_separator _
  · rw [rowLines, List.mem_append, List.mem_map, List.mem_singleton] at hl
    rcases hl with ⟨k, -, rfl⟩ | rfl
    · exact line_rowLine (h row hrow) _ k
    · exact line_separator _

theorem closed_fillRow (n : ℕ) (row : List (List Char)) : Closed (fillRow n row) := by
  intro cell hcell l hl
  rcases eq_nil_or_exists_of_mem_fillRow hcell hl with rfl | ⟨s, -, h⟩
  · simp
  · exact newline_notMem_of_mem_splitLines h

/-! ### The whole grid -/

/-- The lines of the grid of a table. -/
def gridLines (width : List Char → Nat) (table : List (List (List Char))) : List (List Char) :=
  if columnCount table = 0 then []
  else lines width (table.map (fillRow (columnCount table))) (columnCount table)

/-- **A grid is its lines**, each with a line feed after it. -/
theorem draw_eq (width : List Char → Nat) (table : List (List (List Char))) :
    draw width table = (gridLines width table).flatMap (· ++ ['\n']) := by
  by_cases h : columnCount table = 0
  · simp [draw, gridLines, h]
  · have hne : lines width (table.map (fillRow (columnCount table))) (columnCount table) ≠ [] :=
      List.cons_ne_nil _ _
    rw [draw, gridLines, if_neg h, if_neg h, joinWith_append_sep hne]

/-- **The lines of a grid stand between borders**, whatever its cells hold. -/
theorem line_of_mem_gridLines {table : List (List (List Char))} {l : List Char}
    (h : l ∈ gridLines width table) : Line l := by
  unfold gridLines at h
  split_ifs at h
  · cases h
  · refine line_of_mem_lines (fun row hrow => ?_) h
    obtain ⟨cells, -, rfl⟩ := List.mem_map.1 hrow
    exact closed_fillRow _ cells

/-- That of two neighbours the second is a line feed only if the first is a border. -/
def Bordered (a b : Char) : Prop := b = '\n' → a ∈ borders

theorem isChain_bordered {s : List Char} (h : '\n' ∉ s) : List.IsChain Bordered s :=
  (List.pairwise_of_forall_mem_list fun _ _ b hb (hn : b = '\n') => absurd (hn ▸ hb) h).isChain

theorem isChain_flatMap {t : List Char} (ht : List.IsChain Bordered t) (hhead : ∀ c ∈ t.head?, c ≠ '\n') :
    ∀ {ls : List (List Char)}, (∀ l ∈ ls, Line l) →
      List.IsChain Bordered (ls.flatMap (· ++ ['\n']) ++ t) ∧
        ∀ c ∈ (ls.flatMap (· ++ ['\n']) ++ t).head?, c ≠ '\n'
  | [], _ => ⟨ht, hhead⟩
  | l :: ls, h => by
    rw [List.forall_mem_cons] at h
    obtain ⟨hchain, hfirst⟩ := isChain_flatMap ht hhead h.2
    obtain ⟨⟨c, hc, r, hl⟩, ⟨d, hd, r', hl'⟩, hclosed⟩ := h.1
    have hc' : c ≠ '\n' := by rintro rfl; exact absurd hc (by decide)
    rw [List.flatMap_cons, List.append_assoc]
    refine ⟨?_, by simp [hl, hc']⟩
    have hline : List.IsChain Bordered (l ++ ['\n']) := by
      refine List.isChain_append.2 ⟨isChain_bordered hclosed, List.isChain_singleton _, ?_⟩
      simp [hl', Bordered, hd]
    refine List.isChain_append.2 ⟨hline, hchain, ?_⟩
    intro a _ b hb hn
    exact absurd hn (hfirst b hb)

/-- **Every line feed of a grid stands right after a border**, also when a text without line feeds
stands before the grid and another after it. -/
theorem isChain_draw {head tail : List Char} (hhead : '\n' ∉ head) (htail : '\n' ∉ tail)
    (width : List Char → Nat) (table : List (List (List Char))) :
    List.IsChain Bordered (head ++ draw width table ++ tail) := by
  have ht : ∀ c ∈ tail.head?, c ≠ '\n' := by
    rintro c hc rfl
    exact htail (List.mem_of_mem_head? hc)
  have hlines : ∀ l ∈ gridLines width table, Line l := fun l => line_of_mem_gridLines
  obtain ⟨hchain, hfirst⟩ := isChain_flatMap (isChain_bordered htail) ht hlines
  rw [draw_eq, List.append_assoc]
  refine List.isChain_append.2 ⟨isChain_bordered hhead, hchain, ?_⟩
  intro a _ b hb hn
  exact absurd hn (hfirst b hb)

/-! ### What stands in a grid -/

/-- The characters that a grid has of its own. -/
def frame : List Char := ['+', '|', '-', ' ', '\n']

/-- A text that has no character of the frame. -/
structure Frameless (u : List Char) : Prop where
  ne_nil : u ≠ []
  disjoint : ∀ c ∈ frame, c ∉ u

theorem Frameless.not_infix (hu : Frameless u) {b : List Char} (hb : ∀ c ∈ b, c ∈ frame) :
    ¬ u <:+: b := by
  intro h
  obtain ⟨c, r, rfl⟩ := List.exists_cons_of_ne_nil hu.ne_nil
  exact hu.disjoint c (hb c (h.subset List.mem_cons_self)) List.mem_cons_self

theorem Frameless.infix_left (hu : Frameless u) {a b : List Char} (hb : ∀ c ∈ b, c ∈ frame)
    (h : u <:+: a ++ b) : u <:+: a := by
  cases b with
  | nil => rwa [List.append_nil] at h
  | cons c b =>
    rw [List.forall_mem_cons] at hb
    exact (infix_append_cons (hu.disjoint c hb.1) h).resolve_right (hu.not_infix hb.2)

theorem Frameless.infix_right (hu : Frameless u) {c : Char} {b : List Char} (hc : c ∈ frame)
    (h : u <:+: c :: b) : u <:+: b := by
  have hnil : ¬ u <:+: [] := hu.not_infix (by simp)
  exact (infix_append_cons (a := []) (hu.disjoint c hc) h).resolve_left hnil

theorem Frameless.infix_cellPiece (hu : Frameless u) {k w : ℕ} {cell : List (List Char)}
    (h : u <:+: cellPiece width k w cell) : ∃ l ∈ cell, u <:+: l := by
  have hspace : ' ' ∈ frame := by decide
  have hline : u <:+: cell.getD k [] := by
    rw [cellPiece, List.append_assoc, List.cons_append] at h
    refine hu.infix_left (fun c hc => ?_) (hu.infix_right hspace h)
    rcases List.mem_append.1 hc with hc | hc
    · rw [List.eq_of_mem_replicate hc]; exact hspace
    · rw [List.mem_singleton.1 hc]; exact hspace
  rw [List.getD_eq_getElem?_getD] at hline
  cases hk : cell[k]? with
  | none =>
    rw [hk] at hline
    exact absurd (List.infix_nil.1 hline) hu.ne_nil
  | some l =>
    rw [hk] at hline
    exact ⟨l, List.mem_of_getElem? hk, hline⟩

theorem Frameless.infix_rowLine (hu : Frameless u) {ws : List ℕ} {row : Row} {k : ℕ}
    (h : u <:+: rowLine width ws row k) : ∃ cell ∈ row, ∃ l ∈ cell, u <:+: l := by
  have hbar : '|' ∈ frame := by decide
  rw [rowLine, List.cons_append] at h
  have hpieces := hu.infix_left (by simp [hbar]) (hu.infix_right hbar h)
  obtain ⟨piece, hpiece, hup⟩ := (infix_joinWith (hu.disjoint _ hbar) hpieces).resolve_left hu.ne_nil
  obtain ⟨i, hi, rfl⟩ := List.mem_iff_getElem.1 hpiece
  rw [List.getElem_zipWith] at hup
  exact ⟨_, List.getElem_mem _, hu.infix_cellPiece hup⟩

theorem Frameless.not_infix_separator (hu : Frameless u) (ws : List ℕ) : ¬ u <:+: separator ws := by
  refine hu.not_infix fun c hc => ?_
  rcases mem_separator hc with rfl | rfl
  · decide
  · decide

theorem Frameless.infix_line (hu : Frameless u) {n : ℕ} {l : List Char} (hl : l ∈ lines width rows n)
    (h : u <:+: l) : ∃ row ∈ rows, ∃ cell ∈ row, ∃ line ∈ cell, u <:+: line := by
  rw [lines, List.mem_cons, List.mem_flatMap] at hl
  rcases hl with rfl | ⟨row, hrow, hl⟩
  · exact absurd h (hu.not_infix_separator _)
  · rw [rowLines, List.mem_append, List.mem_map, List.mem_singleton] at hl
    rcases hl with ⟨k, -, rfl⟩ | rfl
    · exact ⟨row, hrow, hu.infix_rowLine h⟩
    · exact absurd h (hu.not_infix_separator _)

theorem infix_of_mem_splitLines {s l : List Char} (h : l ∈ Text.splitLines s) : l <:+: s := by
  obtain ⟨p, hp, rfl⟩ := List.mem_map.1 h
  have hs : p.1 ++ p.2 <:+: s := by
    have hmem := List.mem_map_of_mem (f := fun p => p.1 ++ p.2) hp
    have hinf := List.infix_of_mem_flatten hmem
    rwa [Text.concat_linesWithBreaks] at hinf
  exact (List.prefix_append p.1 p.2).isInfix.trans hs

theorem Frameless.infix_fillRow (hu : Frameless u) {n : ℕ} {row : List (List Char)}
    {cell : List (List Char)} (hc : cell ∈ fillRow n row) {l : List Char} (hl : l ∈ cell)
    (h : u <:+: l) : ∃ s ∈ row, u <:+: s := by
  rcases eq_nil_or_exists_of_mem_fillRow hc hl with rfl | ⟨s, hs, hmem⟩
  · exact absurd (List.infix_nil.1 h) hu.ne_nil
  · exact ⟨s, hs, h.trans (infix_of_mem_splitLines hmem)⟩

/-- In lines that start with borders a text without characters of the frame stands in one of them. -/
theorem Frameless.infix_flatten (hu : Frameless u) : ∀ {ls : List (List Char)}, (∀ l ∈ ls, Line l) →
    u <:+: ls.flatten → ∃ l ∈ ls, u <:+: l
  | [], _, h => absurd (List.infix_nil.1 h) hu.ne_nil
  | [l], _, h => ⟨l, by simp, by simpa using h⟩
  | l :: m :: ls, hl, h => by
    rw [List.forall_mem_cons] at hl
    obtain ⟨c, hc, r, hm⟩ := (hl.2 m (by simp)).starts
    have hframe : c ∉ u := hu.disjoint c (by
      simp only [borders, List.mem_cons, List.not_mem_nil, or_false] at hc
      rcases hc with rfl | rfl <;> decide)
    have hrest : (m :: ls).flatten = c :: (r ++ ls.flatten) := by simp [hm]
    rw [List.flatten_cons, hrest] at h
    rcases infix_append_cons hframe h with h | h
    · exact ⟨l, by simp, h⟩
    · have h' : u <:+: (m :: ls).flatten := hrest ▸ h.trans (List.suffix_cons c _).isInfix
      obtain ⟨k, hk, huk⟩ := hu.infix_flatten hl.2 h'
      exact ⟨k, List.mem_cons_of_mem l hk, huk⟩

theorem filter_flatMap_lines : ∀ {ls : List (List Char)}, (∀ l ∈ ls, Line l) →
    (ls.flatMap (· ++ ['\n'])).filter (· ≠ '\n') = ls.flatten
  | [], _ => rfl
  | l :: ls, h => by
    rw [List.forall_mem_cons] at h
    have hl : l.filter (· ≠ '\n') = l :=
      List.filter_eq_self.2 fun c hc => by
        have hne : c ≠ '\n' := by rintro rfl; exact h.1.closed hc
        simpa using hne
    rw [List.flatMap_cons, List.filter_append, List.filter_append, hl, filter_flatMap_lines h.2,
      List.flatten_cons]
    simp

/-- **What a grid does not have of its own stands in a cell**, also if the line feeds are taken out of the grid. -/
theorem Frameless.infix_draw (hu : Frameless u) {table : List (List (List Char))}
    (h : u <:+: (draw width table).filter (· ≠ '\n')) : ∃ row ∈ table, ∃ cell ∈ row, u <:+: cell := by
  have hlines : ∀ l ∈ gridLines width table, Line l := fun l => line_of_mem_gridLines
  rw [draw_eq, filter_flatMap_lines hlines] at h
  obtain ⟨l, hl, hul⟩ := hu.infix_flatten hlines h
  unfold gridLines at hl
  split_ifs at hl
  · cases hl
  · obtain ⟨row, hrow, cell, hcell, line, hline, h⟩ := hu.infix_line hl hul
    obtain ⟨cells, hcells, rfl⟩ := List.mem_map.1 hrow
    exact ⟨cells, hcells, hu.infix_fillRow hcell hline h⟩

end Bulletin.Proofs.Page.Grid
