import Bulletin.Proofs.Page.Maxima
import Bulletin.Proofs.Text.Lines
import Mathlib.Algebra.GroupWithZero.Nat
import Mathlib.Data.List.GetD
import Mathlib.Order.Bounds.Defs

/-! # The layout of a grid

A grid is a row of lines: a separator before, between and after the rows of the table, and for each
row as many lines as its tallest cell has, at least one (`LaidOut`). Such a line has a column for each
cell of the longest row. In a column stand the line of the cell with the same number, or nothing, and
spaces that fill it up to the width of the column, which is that of the widest line in it, so that
there is always room for a text. That holds for any measure of widths under which the empty text has
none (`draw_layout`).

* `getElem?_columnWidths`: the width of a column is the greatest of its cells' widths.
* `rowHeight_fillRow`: filling a row up with empty cells does not make it taller.
* `unbroken_of_mem_gridLines`: a line of a grid has no character that ends lines. -/

namespace Bulletin.Proofs.Page.Layout

open Bulletin.Page.Grid Grid Maxima
open Bulletin.Text (isLineBreak splitLines)

variable {width : List Char → Nat} {rows : List (List (List Char))} {table : List Row}
  {row : List (List Char)} {n : ℕ}

/-! ### Greatest of some numbers -/

theorem le_largest {m : ℕ} : ∀ {ns : List ℕ}, m ∈ ns → m ≤ largest ns
  | k :: ns, h => by
    have hcons : largest (k :: ns) = max k (largest ns) := rfl
    rw [hcons]
    rcases List.mem_cons.1 h with rfl | h
    · exact Nat.le_max_left _ _
    · exact (le_largest h).trans (Nat.le_max_right _ _)

theorem largest_mem {ns : List ℕ} (h : ns ≠ []) : largest ns ∈ ns :=
  List.max?_mem (max?_eq h)

theorem columnCount_eq (rows : List (List (List Char))) :
    columnCount rows = largest (rows.map List.length) := by
  rw [columnCount, largest, List.foldr_map]

/-! ### Cells and their lines -/

/-- A line of a cell, empty if the cell has no line with that number. -/
def lineOf (cell : List Char) (k : ℕ) : List Char := (splitLines cell).getD k []

/-- The number of lines of a row: that of its tallest cell, and at least one. -/
def height (row : List (List Char)) : ℕ :=
  (row.map fun cell => (splitLines cell).length).foldr max 1

theorem eq_nil_or_mem_lineOf (cell : List Char) (k : ℕ) :
    lineOf cell k = [] ∨ lineOf cell k ∈ splitLines cell := by
  by_cases hk : k < (splitLines cell).length
  · right
    rw [lineOf, List.getD_eq_getElem _ _ hk]
    exact List.getElem_mem hk
  · left
    exact List.getD_eq_default _ _ (by omega)

theorem getD_cellLines (cell : List Char) (k : ℕ) : (cellLines cell).getD k [] = lineOf cell k := by
  unfold cellLines lineOf
  cases hl : splitLines cell with
  | nil => cases k <;> rfl
  | cons l ls => rfl

theorem length_le_height : ∀ {row : List (List Char)} {cell : List Char}, cell ∈ row →
    (splitLines cell).length ≤ height row
  | c :: row, cell, h => by
    have hcons : height (c :: row) = max (splitLines c).length (height row) := rfl
    rw [hcons]
    rcases List.mem_cons.1 h with rfl | h
    · exact Nat.le_max_left _ _
    · exact (length_le_height h).trans (Nat.le_max_right _ _)

theorem length_cellLines (cell : List Char) :
    (cellLines cell).length = max 1 (splitLines cell).length := by
  unfold cellLines
  cases hl : splitLines cell with
  | nil => rfl
  | cons l ls =>
    simp only [List.length_cons]
    omega

/-- **The lines of a cell in a row that is filled up.** -/
theorem getD_of_fillRow {i : ℕ} {cell : List (List Char)} (h : (fillRow n row)[i]? = some cell)
    (k : ℕ) : cell.getD k [] = lineOf (row.getD i []) k := by
  unfold fillRow at h
  by_cases hi : i < row.length
  · rw [List.getElem?_append_left (by simpa using hi), List.getElem?_map,
      List.getElem?_eq_getElem hi] at h
    obtain rfl := Option.some.inj h
    rw [getD_cellLines, List.getD_eq_getElem _ _ hi]
  · rw [List.getElem?_append_right (by simpa using hi)] at h
    obtain rfl := List.eq_of_mem_replicate (List.mem_of_getElem? h)
    have hempty : row.getD i [] = [] := List.getD_eq_default _ _ (by omega)
    rw [hempty]
    cases k <;> rfl

theorem max_largest_lengths (m : ℕ) : ∀ row : List (List Char),
    max (largest ((row.map fun cell => (cellLines cell).length) ++ List.replicate m 1)) 1 = height row
  | [] => by
    have hone : largest (List.replicate m 1) ≤ 1 := by
      by_cases hm : List.replicate m 1 = []
      · rw [hm]
        exact Nat.zero_le 1
      · rw [List.eq_of_mem_replicate (largest_mem hm)]
    exact Nat.max_eq_right hone
  | cell :: row => by
    have ih := max_largest_lengths m row
    have hheight : height (cell :: row) = max (splitLines cell).length (height row) := rfl
    have hlargest : largest (((cell :: row).map fun cell => (cellLines cell).length) ++
        List.replicate m 1) = max (cellLines cell).length
          (largest ((row.map fun cell => (cellLines cell).length) ++ List.replicate m 1)) := rfl
    rw [hlargest, hheight, length_cellLines]
    omega

/-- **Filling a row up does not make it taller.** -/
theorem rowHeight_fillRow (hn : 0 < n) (h : row.length ≤ n) : rowHeight (fillRow n row) = height row := by
  have hlengths : (fillRow n row).map List.length =
      (row.map fun cell => (cellLines cell).length) ++ List.replicate (n - row.length) 1 := by
    simp [fillRow, Function.comp_def]
  have hmax := max_largest_lengths (n - row.length) row
  have hlen := length_fillRow h
  have hpos : 1 ≤ rowHeight (fillRow n row) := by
    obtain ⟨cell, cells, hcells⟩ := List.exists_cons_of_length_pos (by omega : 0 < (fillRow n row).length)
    have hmem : cell ∈ fillRow n row := by rw [hcells]; exact List.mem_cons_self
    have hcell : 0 < cell.length := List.length_pos_iff.2 (ne_nil_of_mem_fillRow hmem)
    have hle : cell.length ≤ rowHeight (fillRow n row) := le_largest (List.mem_map_of_mem hmem)
    omega
  rw [← hlengths] at hmax
  have hheight : max (rowHeight (fillRow n row)) 1 = height row := hmax
  omega

/-! ### Columns -/

/-- **The width of a column** is that of one of its cells, unless it is zero, and no cell is wider. -/
theorem getElem?_columnWidths {i w : ℕ} : ∀ {table : List Row},
    (columnWidths width n table)[i]? = some w →
      (w = 0 ∨ ∃ row ∈ table, ∃ cell, row[i]? = some cell ∧ cellWidth width cell = w) ∧
      ∀ row ∈ table, ∀ cell, row[i]? = some cell → cellWidth width cell ≤ w
  | [], h => by
    have hzero : w = 0 := List.eq_of_mem_replicate (List.mem_of_getElem? h)
    exact ⟨Or.inl hzero, by simp⟩
  | row :: table, h => by
    have hstep : (List.zipWith max (row.map (cellWidth width)) (columnWidths width n table))[i]? =
        some w := h
    obtain ⟨v, u, hv, hu, rfl⟩ := List.getElem?_zipWith_eq_some.1 hstep
    rw [List.getElem?_map, Option.map_eq_some_iff] at hv
    obtain ⟨cell, hcell, rfl⟩ := hv
    obtain ⟨hsome, hall⟩ := getElem?_columnWidths hu
    constructor
    · rcases Nat.le_total u (cellWidth width cell) with hle | hle
      · exact Or.inr ⟨row, List.mem_cons_self, cell, hcell, by omega⟩
      · rw [Nat.max_eq_right hle]
        rcases hsome with h0 | ⟨r, hr, c, hc, hw⟩
        · exact Or.inl h0
        · exact Or.inr ⟨r, List.mem_cons_of_mem _ hr, c, hc, hw⟩
    · intro r hr c hc
      rcases List.mem_cons.1 hr with rfl | hr
      · rw [hcell] at hc
        obtain rfl := Option.some.inj hc
        exact Nat.le_max_left _ _
      · have hle := hall r hr c hc
        omega

section Widths
variable {ws : List ℕ} {i w : ℕ}

theorem length_widths (width : List Char → Nat) (rows : List (List (List Char))) :
    (columnWidths width (columnCount rows) (rows.map (fillRow (columnCount rows)))).length =
      columnCount rows := length_columnWidths width (full_fillRow rows)

theorem exists_getElem?_fillRow (hrow : row ∈ rows) (hi : i < columnCount rows) :
    ∃ cell, (fillRow (columnCount rows) row)[i]? = some cell := by
  have hlen := length_fillRow (length_le_columnCount hrow)
  exact ⟨_, List.getElem?_eq_getElem (by omega)⟩

/-- **A column is as wide as the widest line in it.** -/
theorem isGreatest_columnWidths (h0 : width [] = 0) (hrows : rows ≠ [])
    (h : (columnWidths width (columnCount rows) (rows.map (fillRow (columnCount rows))))[i]? =
      some w) :
    IsGreatest {v | ∃ row ∈ rows, ∃ k, width (lineOf (row.getD i []) k) = v} w := by
  have hi : i < columnCount rows := by
    obtain ⟨hlt, -⟩ := List.getElem?_eq_some_iff.1 h
    rwa [length_widths] at hlt
  obtain ⟨hsome, hall⟩ := getElem?_columnWidths h
  constructor
  · rcases hsome with rfl | ⟨filled, hfilled, cell, hcell, rfl⟩
    · obtain ⟨row, rest, rfl⟩ := List.exists_cons_of_ne_nil hrows
      refine ⟨row, List.mem_cons_self, (splitLines (row.getD i [])).length, ?_⟩
      rw [lineOf, List.getD_eq_default _ _ le_rfl, h0]
    · obtain ⟨row, hrow, rfl⟩ := List.mem_map.1 hfilled
      have hne : cell ≠ [] := ne_nil_of_mem_fillRow (List.mem_of_getElem? hcell)
      have hmem : cellWidth width cell ∈ cell.map width := largest_mem (by simpa using hne)
      obtain ⟨line, hline, hw⟩ := List.mem_map.1 hmem
      obtain ⟨k, hk, rfl⟩ := List.getElem_of_mem hline
      refine ⟨row, hrow, k, ?_⟩
      rw [← getD_of_fillRow hcell, List.getD_eq_getElem _ _ hk, hw]
  · rintro v ⟨row, hrow, k, rfl⟩
    obtain ⟨cell, hcell⟩ := exists_getElem?_fillRow hrow hi
    have hle := hall _ (List.mem_map_of_mem hrow) cell hcell
    rw [← getD_of_fillRow hcell]
    by_cases hk : k < cell.length
    · rw [List.getD_eq_getElem _ _ hk]
      have hline : width cell[k] ≤ cellWidth width cell :=
        le_largest (List.mem_map_of_mem (List.getElem_mem hk))
      omega
    · rw [List.getD_eq_default _ _ (by omega), h0]
      exact Nat.zero_le w

end Widths

/-! ### Lines of a grid -/

/-- **A line of a grid has no character that ends lines.** -/
theorem unbroken_of_mem_gridLines {line : List Char} (hl : line ∈ gridLines width rows) :
    ∀ c ∈ line, isLineBreak c = false := by
  intro c hc
  unfold gridLines at hl
  split_ifs at hl with hn
  · cases hl
  · rcases mem_of_mem_lines hl hc with h | ⟨filled, hfilled, cell, hcell, l, hline, h⟩
    · have hframe : ∀ d ∈ ['+', '-', '|', ' '], isLineBreak d = false := by
        simp [isLineBreak]
      exact hframe c h
    · obtain ⟨row, -, rfl⟩ := List.mem_map.1 hfilled
      rcases eq_nil_or_exists_of_mem_fillRow hcell hline with rfl | ⟨s, -, hmem⟩
      · cases h
      · exact Text.isLineBreak_of_mem_splitLines hmem c h

/-- **The lines of a grid**: a separator, and for each row its lines and a separator. -/
theorem gridLines_eq (hn : 0 < columnCount rows) (width : List Char → Nat) :
    ∃ ws, ws = columnWidths width (columnCount rows) (rows.map (fillRow (columnCount rows))) ∧
      gridLines width rows = separator ws :: rows.flatMap fun row =>
        (List.range (height row)).map (rowLine width ws (fillRow (columnCount rows) row)) ++
          [separator ws] := by
  refine ⟨_, rfl, ?_⟩
  rw [gridLines, if_neg (by omega), lines, List.flatMap_map]
  have hrow : ∀ row ∈ rows, ∀ ws : List ℕ, rowLines width ws (fillRow (columnCount rows) row) =
      (List.range (height row)).map (rowLine width ws (fillRow (columnCount rows) row)) ++
        [separator ws] := by
    intro row hrow ws
    rw [rowLines, rowHeight_fillRow hn (length_le_columnCount hrow)]
  rw [List.flatMap_congr fun row hr => hrow row hr _]

theorem mem_gridLines {ws : List ℕ} {line : List Char} (hn : 0 < columnCount rows)
    (hws : ws = columnWidths width (columnCount rows) (rows.map (fillRow (columnCount rows)))) :
    line ∈ gridLines width rows ↔ line = separator ws ∨ ∃ row ∈ rows, ∃ k < height row,
      line = rowLine width ws (fillRow (columnCount rows) row) k := by
  obtain ⟨_, rfl, hlines⟩ := gridLines_eq hn width
  rw [hlines, ← hws, List.mem_cons, List.mem_flatMap]
  constructor
  · rintro (rfl | ⟨row, hrow, hline⟩)
    · exact Or.inl rfl
    · rw [List.mem_append, List.mem_map, List.mem_singleton] at hline
      rcases hline with ⟨k, hk, rfl⟩ | rfl
      · exact Or.inr ⟨row, hrow, k, List.mem_range.1 hk, rfl⟩
      · exact Or.inl rfl
  · rintro (rfl | ⟨row, hrow, k, hk, rfl⟩)
    · exact Or.inl rfl
    · exact Or.inr ⟨row, hrow,
        List.mem_append_left _ (List.mem_map_of_mem (List.mem_range.2 hk))⟩

/-! ### The layout -/

/-- A column of a line: a space, a text with spaces after it that fill it up to a width, and a
space. -/
def Padded (width : List Char → Nat) (w : ℕ) (text piece : List Char) : Prop :=
  ∃ padding, width text + padding = w ∧ piece = ' ' :: text ++ List.replicate padding ' ' ++ [' ']

/-- **A line with texts of a row**: between bars a column for each width, and in each column the line
with the number `k` of the cell there. -/
def IsContent (width : List Char → Nat) (ws : List ℕ) (row : List (List Char)) (k : ℕ)
    (line : List Char) : Prop :=
  ∃ pieces : List (List Char), pieces.length = ws.length ∧
    line = '|' :: Text.joinWith ['|'] pieces ++ ['|'] ∧
    ∀ i w piece, ws[i]? = some w → pieces[i]? = some piece →
      Padded width w (lineOf (row.getD i []) k) piece

/-- **The layout of a grid** in `n` columns of the widths `ws`, in which `content row k` is the line
with the number `k` of a row. -/
structure LaidOut (width : List Char → Nat) (rows : List (List (List Char))) (n : ℕ) (ws : List ℕ)
    (content : List (List Char) → ℕ → List Char) (ls : List (List Char)) : Prop where
  longest : IsGreatest {m | ∃ row ∈ rows, row.length = m} n
  columns : ws.length = n
  widest : ∀ i w, ws[i]? = some w →
    IsGreatest {v | ∃ row ∈ rows, ∃ k, width (lineOf (row.getD i []) k) = v} w
  lines_eq : ls = separator ws :: rows.flatMap fun row =>
    (List.range (height row)).map (content row) ++ [separator ws]
  length_eq : ls.length = 1 + (rows.map fun row => height row + 1).sum
  content : ∀ row ∈ rows, ∀ k < height row, IsContent width ws row k (content row k)
  unbroken : ∀ line ∈ ls, ∀ c ∈ line, isLineBreak c = false

theorem columnCount_eq_zero : columnCount rows = 0 ↔ ∀ row ∈ rows, row = [] := by
  constructor
  · intro h row hrow
    have hle := length_le_columnCount hrow
    exact List.length_eq_zero_iff.1 (by omega)
  · intro h
    rw [columnCount_eq]
    by_contra hne
    have hmap : rows.map List.length ≠ [] := by
      intro hnil
      rw [hnil] at hne
      exact hne rfl
    obtain ⟨row, hrow, hlen⟩ := List.mem_map.1 (largest_mem hmap)
    rw [h row hrow] at hlen
    exact hne hlen.symm

theorem isGreatest_columnCount (h : rows ≠ []) :
    IsGreatest {m | ∃ row ∈ rows, row.length = m} (columnCount rows) := by
  constructor
  · have hmem : columnCount rows ∈ rows.map List.length := by
      rw [columnCount_eq]
      exact largest_mem (by simpa using h)
    exact List.mem_map.1 hmem
  · rintro m ⟨row, hrow, rfl⟩
    exact length_le_columnCount hrow

theorem length_flatMap_lines {content : List (List Char) → ℕ → List Char} {rule : List Char}
    (rows : List (List (List Char))) :
    (rows.flatMap fun row => (List.range (height row)).map (content row) ++ [rule]).length =
      (rows.map fun row => height row + 1).sum := by
  simp [List.length_flatMap]

/-- **A row's line shows the lines of its cells.** -/
theorem isContent_rowLine {ws : List ℕ} (hrow : row ∈ rows)
    (hlen : ws.length = columnCount rows)
    (hwidest : ∀ i w, ws[i]? = some w →
      IsGreatest {v | ∃ row ∈ rows, ∃ k, width (lineOf (row.getD i []) k) = v} w) (k : ℕ) :
    IsContent width ws row k (rowLine width ws (fillRow (columnCount rows) row) k) := by
  have hfill := length_fillRow (length_le_columnCount hrow)
  refine ⟨List.zipWith (cellPiece width k) ws (fillRow (columnCount rows) row),
    by rw [List.length_zipWith]; omega, rfl, fun i w piece hw hpiece => ?_⟩
  obtain ⟨w', cell, hw', hcell, rfl⟩ := List.getElem?_zipWith_eq_some.1 hpiece
  rw [hw] at hw'
  obtain rfl := Option.some.inj hw'
  have hline := getD_of_fillRow hcell k
  have hle : width (lineOf (row.getD i []) k) ≤ w := (hwidest i w hw).2 ⟨row, hrow, k, rfl⟩
  refine ⟨w - width (lineOf (row.getD i []) k), by omega, ?_⟩
  rw [← hline]
  rfl

/-- Rows that are longer by empty cells, but by no more than to a given length. -/
def Filled (n : ℕ) (row row' : List (List Char)) : Prop :=
  ∃ m, row' = row ++ List.replicate m [] ∧ row'.length ≤ n

theorem fillRow_of_filled {row' : List (List Char)} (h : Filled n row row') :
    fillRow n row' = fillRow n row := by
  obtain ⟨m, rfl, hle⟩ := h
  have hempty : (List.replicate m ([] : List Char)).map cellLines = List.replicate m [[]] := by
    simp [cellLines, splitLines, Text.linesWithBreaks]
  rw [List.length_append, List.length_replicate] at hle
  have hsum : n - row.length = m + (n - (row.length + m)) := by omega
  rw [fillRow, fillRow, List.map_append, hempty, List.length_append, List.length_replicate, hsum,
    List.replicate_add, List.append_assoc]

theorem columnCount_cons (row : List (List Char)) (rows : List (List (List Char))) :
    columnCount (row :: rows) = max row.length (columnCount rows) := rfl

theorem columnCount_le_of_filled {rows' : List (List (List Char))}
    (h : List.Forall₂ (Filled n) rows rows') :
    columnCount rows ≤ columnCount rows' ∧ columnCount rows' ≤ n := by
  induction h with
  | nil => exact ⟨le_rfl, Nat.zero_le n⟩
  | cons hrow _ ih =>
    obtain ⟨m, rfl, hle⟩ := hrow
    rw [List.length_append] at hle
    rw [columnCount_cons, columnCount_cons, List.length_append]
    omega

theorem map_fillRow_of_filled {rows' : List (List (List Char))}
    (h : List.Forall₂ (Filled n) rows rows') : rows'.map (fillRow n) = rows.map (fillRow n) := by
  induction h with
  | nil => rfl
  | cons hrow _ ih => rw [List.map_cons, List.map_cons, fillRow_of_filled hrow, ih]

/-- **Empty cells that fill up short rows do not show.** -/
theorem draw_of_filled {rows' : List (List (List Char))}
    (h : List.Forall₂ (Filled (columnCount rows)) rows rows') : draw width rows' = draw width rows := by
  obtain ⟨hle, hle'⟩ := columnCount_le_of_filled h
  have hcount : columnCount rows' = columnCount rows := Nat.le_antisymm hle' hle
  rw [draw, draw, hcount, map_fillRow_of_filled h]

/-- **The layout of grids.** Nothing is drawn just if all rows are empty. If not, the grid is a row of
lines as `LaidOut` tells, each with a line feed after it and no other line end in it, if the empty text
has no width. And short rows may be filled up with empty cells. -/
theorem draw_layout (h0 : width [] = 0) (rows : List (List (List Char))) :
    (draw width rows = [] ↔ ∀ row ∈ rows, row = []) ∧
    ((∃ row ∈ rows, row ≠ []) → ∃ n ws content ls, LaidOut width rows n ws content ls ∧
      draw width rows = ls.flatMap (· ++ ['\n']) ∧ splitLines (draw width rows) = ls) ∧
    ∀ rows', List.Forall₂ (Filled (columnCount rows)) rows rows' →
      draw width rows' = draw width rows := by
  refine ⟨?_, ?_, fun rows' h => draw_of_filled h⟩
  · rw [← columnCount_eq_zero, draw]
    by_cases hn : columnCount rows = 0
    · simp [hn]
    · simp [hn]
  · rintro ⟨row, hrow, hne⟩
    have hrows : rows ≠ [] := List.ne_nil_of_mem hrow
    have hn : 0 < columnCount rows := by
      have hle := length_le_columnCount hrow
      have hpos := List.length_pos_iff.2 hne
      omega
    obtain ⟨ws, hws, hlines⟩ := gridLines_eq hn width
    have hlen : ws.length = columnCount rows := by rw [hws, length_widths]
    have hwidest : ∀ i w, ws[i]? = some w →
        IsGreatest {v | ∃ row ∈ rows, ∃ k, width (lineOf (row.getD i []) k) = v} w := by
      intro i w hw
      rw [hws] at hw
      exact isGreatest_columnWidths h0 hrows hw
    have hunbroken : ∀ line ∈ gridLines width rows, ∀ c ∈ line, isLineBreak c = false :=
      fun line hl => unbroken_of_mem_gridLines hl
    refine ⟨columnCount rows, ws, fun row k => rowLine width ws (fillRow (columnCount rows) row) k,
      gridLines width rows, ⟨isGreatest_columnCount hrows, hlen, hwidest, hlines, ?_,
        fun row hr k _ => isContent_rowLine hr hlen hwidest k, hunbroken⟩, draw_eq width rows, ?_⟩
    · rw [hlines, List.length_cons, length_flatMap_lines, Nat.add_comm]
    · rw [draw_eq, Text.splitLines_flatMap hunbroken]

/-- Three rows, the second without a cell, and a cell of two lines in the first. -/
def ragged : List (List (List Char)) := [["a\nbc".toList, "".toList], [], ["d".toList]]

/-- The same rows, filled up. -/
def squared : List (List (List Char)) :=
  [["a\nbc".toList, "".toList], ["".toList, "".toList], ["d".toList, "".toList]]

theorem draw_layout_ragged :
    (Text.width [] = 0 ∧ (∃ row ∈ ragged, row ≠ []) ∧
      List.Forall₂ (Filled (columnCount ragged)) ragged squared) ∧
    (draw Text.width ragged = [] ↔ ∀ row ∈ ragged, row = []) ∧
    (∃ n ws content ls, LaidOut Text.width ragged n ws content ls ∧
      draw Text.width ragged = ls.flatMap (· ++ ['\n']) ∧ splitLines (draw Text.width ragged) = ls) ∧
    draw Text.width squared = draw Text.width ragged := by
  have h0 : Text.width [] = 0 := rfl
  have hrow : ∃ row ∈ ragged, row ≠ [] := by decide
  have hfilled : List.Forall₂ (Filled (columnCount ragged)) ragged squared :=
    .cons ⟨0, rfl, by decide⟩ (.cons ⟨2, rfl, by decide⟩ (.cons ⟨1, rfl, by decide⟩ .nil))
  obtain ⟨hnil, hlaid, hsame⟩ := draw_layout h0 ragged
  exact ⟨⟨h0, hrow, hfilled⟩, hnil, hlaid hrow, hsame squared hfilled⟩

end Bulletin.Proofs.Page.Layout
