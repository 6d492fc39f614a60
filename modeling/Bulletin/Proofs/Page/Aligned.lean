import Bulletin.Page.Render
import Bulletin.Proofs.Page.Layout
import Bulletin.Proofs.Text.Tables
import Bulletin.Proofs.Text.Width

/-! # Lines of a grid, in terminal cells

A text in a grid is filled up with spaces for the width that it has alone. In its line it stands
between spaces, and these are plain characters, so that it takes as many cells there, unless it ends
in an odd number of joiners: then the last of them hides the space after the text. So a line falls
short of the separator by the number of its texts that end so (`width_line`), and all lines of a
grid take the same number of cells just if no line of a cell does (`drawRows_aligned_iff`). -/

namespace Bulletin.Proofs.Page.Aligned

open Bulletin.Page (drawRows)
open Bulletin.Page.Grid Grid Maxima Layout
open Bulletin.Text (Dangling Plain splitLines width)

variable {rows : List (List (List Char))} {row : Row} {cells : List (List Char)} {ws : List ℕ}
  {k n : ℕ}

/-! ### The characters of the frame -/

theorem not_widened_frame : ∀ n ∈ [32, 43, 45, 124], Text.widenedBySelector.contains n = false := by
  rw [Text.widenedBySelector, Text.ofText_rows (by repeat constructor)]
  decide +kernel

theorem plain_space : Plain ' ' :=
  Text.plain_of_ascii (by decide) (by decide) (not_widened_frame 32 (by decide))

theorem plain_plus : Plain '+' :=
  Text.plain_of_ascii (by decide) (by decide) (not_widened_frame 43 (by decide))

theorem plain_dash : Plain '-' :=
  Text.plain_of_ascii (by decide) (by decide) (not_widened_frame 45 (by decide))

theorem plain_bar : Plain '|' :=
  Text.plain_of_ascii (by decide) (by decide) (not_widened_frame 124 (by decide))

/-! ### The width of a line -/

theorem width_separator (hne : ws ≠ []) : width (separator ws) = 1 + (ws.map (· + 3)).sum := by
  have hplain : ∀ c ∈ separator ws, Plain c := by
    intro c hc
    rcases mem_separator hc with rfl | rfl
    · exact plain_plus
    · exact plain_dash
  have hwidth := Text.width_plain_append [] hplain
  have hcolumn : ∀ w : ℕ, (List.replicate (w + 2) '-' ++ ['+']).length = w + 3 := by simp
  have hjoin : (separator ws).length = 1 + (ws.map (· + 3)).sum := by
    rw [separator, List.cons_append, joinWith_append_sep (by simpa using hne), List.length_cons,
      List.flatMap_map, List.length_flatMap]
    simp only [hcolumn]
    omega
  rw [List.append_nil] at hwidth
  rw [hwidth, hjoin]
  rfl

/-- The number of texts in a line of a row that hide the space after them. -/
def shortfall (row : Row) (k : ℕ) : ℕ := row.countP fun cell => Dangling (cell.getD k [])

/-- **A column of a line**, with the bar after it, takes its width and three cells. -/
theorem width_cellPiece {w : ℕ} {cell : List (List Char)} (h : width (cell.getD k []) ≤ w)
    (u : List Char) :
    width (cellPiece width k w cell ++ '|' :: u) + (if Dangling (cell.getD k []) then 1 else 0) =
      w + 3 + width u := by
  have hframe : ∀ c ∈ List.replicate (w - width (cell.getD k [])) ' ' ++ [' ', '|'], Plain c := by
    intro c hc
    simp only [List.mem_append, List.mem_replicate, List.mem_cons, List.not_mem_nil, or_false] at hc
    rcases hc with ⟨-, rfl⟩ | rfl | rfl
    · exact plain_space
    · exact plain_space
    · exact plain_bar
  have hpiece : cellPiece width k w cell ++ '|' :: u =
      ' ' :: (cell.getD k [] ++ (List.replicate (w - width (cell.getD k [])) ' ' ++ [' ', '|'] ++ u)) := by
    simp [cellPiece]
  have htext := Text.width_append_plain hframe (by simp) (cell.getD k []) u
  have hlen : (List.replicate (w - width (cell.getD k [])) ' ' ++ [' ', '|']).length =
      w - width (cell.getD k []) + 2 := by simp
  rw [hlen] at htext
  rw [hpiece, width, Text.width_plain_cons plain_space]
  omega

theorem width_pieces (h : List.Forall₂ (fun w cell => width (cell.getD k []) ≤ w) ws row) :
    width ((List.zipWith (cellPiece width k) ws row).flatMap (· ++ ['|'])) + shortfall row k =
      (ws.map (· + 3)).sum := by
  induction h with
  | nil => rfl
  | @cons w cell ws row hle _ ih =>
    have hpiece := width_cellPiece hle
      ((List.zipWith (cellPiece width k) ws row).flatMap (· ++ ['|']))
    have hcount : shortfall (cell :: row) k =
        shortfall row k + (if Dangling (cell.getD k []) then 1 else 0) := by
      simp [shortfall, List.countP_cons]
    rw [List.zipWith_cons_cons, List.flatMap_cons, List.append_assoc, List.singleton_append,
      List.map_cons, List.sum_cons, hcount]
    omega

/-- **A line falls short of the separator** by the number of its texts that hide a space. -/
theorem width_rowLine (hne : ws ≠ [])
    (h : List.Forall₂ (fun w cell => width (cell.getD k []) ≤ w) ws row) :
    width (rowLine width ws row k) + shortfall row k = width (separator ws) := by
  have hpieces : List.zipWith (cellPiece width k) ws row ≠ [] := by
    cases h with
    | nil => exact absurd rfl hne
    | cons => exact List.cons_ne_nil _ _
  have hwidth := width_pieces h
  rw [width_separator hne, rowLine, List.cons_append, joinWith_append_sep hpieces, width,
    Text.width_plain_cons plain_bar]
  omega

/-! ### The lines of a grid -/

theorem shortfall_fillRow :
    shortfall (fillRow n cells) k = 0 ↔ ∀ cell ∈ cells, ¬ Dangling (lineOf cell k) := by
  have hempty : ∀ cell ∈ List.replicate (n - cells.length) [[]], ¬ Dangling (cell.getD k []) := by
    intro cell hcell
    rw [List.eq_of_mem_replicate hcell]
    cases k with
    | zero => exact Text.not_dangling_nil
    | succ k => exact Text.not_dangling_nil
  simp only [shortfall, List.countP_eq_zero, decide_eq_true_eq, fillRow, List.forall_mem_append,
    List.forall_mem_map, getD_cellLines]
  exact and_iff_left hempty

theorem fits_fillRow (hcells : cells ∈ rows)
    (hws : ws = columnWidths width (columnCount rows) (rows.map (fillRow (columnCount rows))))
    (k : ℕ) :
    List.Forall₂ (fun w cell => width (cell.getD k []) ≤ w) ws (fillRow (columnCount rows) cells) := by
  have hlen := length_fillRow (length_le_columnCount hcells)
  have hlen' := length_widths width rows
  rw [← hws] at hlen'
  refine List.forall₂_iff_get.2 ⟨by omega, fun i hw hcell => ?_⟩
  have hgreatest := isGreatest_columnWidths (i := i) (w := ws[i]) rfl (List.ne_nil_of_mem hcells)
    (by rw [← hws]; exact List.getElem?_eq_getElem hw)
  rw [List.get_eq_getElem, List.get_eq_getElem, getD_of_fillRow (List.getElem?_eq_getElem hcell)]
  exact hgreatest.2 ⟨cells, hcells, k, rfl⟩

/-- **A line of a grid falls short of its separators** by the number of its texts that hide a space. -/
theorem width_line (hn : 0 < columnCount rows) (hcells : cells ∈ rows)
    (hws : ws = columnWidths width (columnCount rows) (rows.map (fillRow (columnCount rows))))
    (k : ℕ) :
    width (rowLine width ws (fillRow (columnCount rows) cells) k) +
      shortfall (fillRow (columnCount rows) cells) k = width (separator ws) := by
  have hlen := length_widths width rows
  rw [← hws] at hlen
  exact width_rowLine (List.ne_nil_of_length_pos (by omega)) (fits_fillRow hcells hws k)

theorem gridLines_aligned_iff (rows : List (List (List Char))) :
    (∀ a ∈ gridLines width rows, ∀ b ∈ gridLines width rows, width a = width b) ↔
      ∀ cells ∈ rows, ∀ cell ∈ cells, ∀ line ∈ splitLines cell, ¬ Dangling line := by
  by_cases hn : columnCount rows = 0
  · have hempty := columnCount_eq_zero.1 hn
    constructor
    · intro _ cells hcells cell hcell
      rw [hempty cells hcells] at hcell
      cases hcell
    · intro _ a ha
      rw [gridLines, if_pos hn] at ha
      cases ha
  · have hpos := Nat.pos_of_ne_zero hn
    obtain ⟨ws, hws⟩ : ∃ ws, ws =
      columnWidths width (columnCount rows) (rows.map (fillRow (columnCount rows))) := ⟨_, rfl⟩
    constructor
    · intro h cells hcells cell hcell line hline
      obtain ⟨k, hk, rfl⟩ := List.getElem_of_mem hline
      have hheight : k < height cells := hk.trans_le (length_le_height hcell)
      have hsame := h _ ((mem_gridLines hpos hws).2 (Or.inr ⟨cells, hcells, k, hheight, rfl⟩)) _
        ((mem_gridLines hpos hws).2 (Or.inl rfl))
      have hsum := width_line hpos hcells hws k
      have hnone := shortfall_fillRow.1 (by omega : shortfall (fillRow (columnCount rows) cells) k = 0)
        cell hcell
      rwa [lineOf, List.getD_eq_getElem _ _ hk] at hnone
    · intro h
      have hall : ∀ a ∈ gridLines width rows, width a = width (separator ws) := by
        intro a ha
        rcases (mem_gridLines hpos hws).1 ha with rfl | ⟨cells, hcells, k, -, rfl⟩
        · rfl
        · have hnone : shortfall (fillRow (columnCount rows) cells) k = 0 := by
            refine shortfall_fillRow.2 fun cell hcell => ?_
            rcases eq_nil_or_mem_lineOf cell k with hnil | hmem
            · rw [hnil]
              exact Text.not_dangling_nil
            · exact h cells hcells cell hcell _ hmem
          have hsum := width_line hpos hcells hws k
          omega
      intro a ha b hb
      rw [hall a ha, hall b hb]

/-- **The lines of a grid take the same number of terminal cells** just if no line of a cell ends in
an odd number of joiners. -/
theorem drawRows_aligned_iff (rows : List (List String)) :
    (∀ a ∈ splitLines (drawRows rows).toList, ∀ b ∈ splitLines (drawRows rows).toList,
      width a = width b) ↔
      ∀ row ∈ rows, ∀ cell ∈ row, ∀ line ∈ splitLines cell.toList, ¬ Dangling line := by
  have hiff := gridLines_aligned_iff (rows.map (·.map String.toList))
  rw [drawRows, String.toList_ofList, draw_eq,
    Text.splitLines_flatMap fun line hline => unbroken_of_mem_gridLines hline, hiff]
  simp only [List.forall_mem_map]

/-- A joiner at the end of a cell hides a space, and the line takes four cells, not five. -/
theorem drawRows_joiner_uneven : ¬ ∀ a ∈ splitLines (drawRows [["a\u200D"], ["b"]]).toList,
    ∀ b ∈ splitLines (drawRows [["a\u200D"], ["b"]]).toList, width a = width b := by
  have hwidths : (splitLines (drawRows [["a\u200D"], ["b"]]).toList).map width = [5, 4, 5, 5, 5] := by
    decide +kernel
  intro h
  have hall : ∀ v ∈ [5, 4, 5, 5, 5], ∀ w ∈ [5, 4, 5, 5, 5], v = w := by
    rw [← hwidths]
    simpa only [List.forall_mem_map] using h
  exact absurd hall (by decide)

end Bulletin.Proofs.Page.Aligned
