import Bulletin.Page.Render
import Bulletin.Proofs.Page.Grid

/-! # Grids with their maxima asked for

The width of a column is the greatest of the widths of its lines, and the height of a row the greatest
of the numbers of lines of its cells. Of no numbers there is no greatest, and a row longer than the row
of widths has a cell without one. Drawn in this way (`draw?`), a grid is drawn of every table: a cell
has a line, even if it is empty, and all rows are filled up to one length, which is not zero where a
line is drawn.

* `draw?_eq`: the grid of a table is always drawn. -/

namespace Bulletin.Proofs.Page.Maxima

open Bulletin.Page.Grid

variable {width : List Char → Nat} {ws : List ℕ} {row : Row} {table : List Row}
  {rows : List (List (List Char))} {n : ℕ}

/-! ### Drawing that may fail -/

/-- The widths of the columns with a row taken in; none if a cell has no line or no column. -/
def widen? (width : List Char → Nat) : List ℕ → Row → Option (List ℕ)
  | ws, [] => some ws
  | [], _ :: _ => none
  | w :: ws, cell :: cells => do
    let widest ← (cell.map width).max?
    let rest ← widen? width ws cells
    return max w widest :: rest

/-- The pieces of a line of a row; none if a cell has no column. -/
def pieces? (width : List Char → Nat) (k : ℕ) : List ℕ → Row → Option (List (List Char))
  | _, [] => some []
  | [], _ :: _ => none
  | w :: ws, cell :: cells => do
    let rest ← pieces? width k ws cells
    return cellPiece width k w cell :: rest

/-- The lines of a row and the separator after it; none if the row has no cell. -/
def rowLines? (width : List Char → Nat) (ws : List ℕ) (row : Row) : Option (List (List Char)) := do
  let height ← (row.map List.length).max?
  let body ← (List.range height).mapM fun k => do
    let pieces ← pieces? width k ws row
    return '|' :: Text.joinWith ['|'] pieces ++ ['|']
  return body ++ [separator ws]

/-- **The grid of a table**, none where the greatest of no numbers would be asked for. -/
def draw? (width : List Char → Nat) (rows : List (List (List Char))) : Option (List Char) :=
  let table := rows.map (fillRow (columnCount rows))
  match table with
  | [] => some []
  | first :: _ =>
    if first.isEmpty then some []
    else do
      let ws ← table.foldlM (widen? width) (List.replicate first.length 0)
      let body ← table.mapM (rowLines? width ws)
      return Text.joinWith ['\n'] (separator ws :: body.flatten) ++ ['\n']

/-! ### Maxima -/

theorem foldl_max (a : ℕ) : ∀ ns : List ℕ, ns.foldl max a = max a (largest ns)
  | [] => (Nat.max_zero a).symm
  | m :: ns => by
    rw [List.foldl_cons, foldl_max (max a m) ns, Nat.max_assoc]
    rfl

theorem max?_eq {ns : List ℕ} (h : ns ≠ []) : ns.max? = some (largest ns) := by
  cases ns with
  | nil => exact absurd rfl h
  | cons m ns =>
    show some (ns.foldl max m) = _
    rw [foldl_max]
    rfl

theorem mapM_eq_map {α β : Type} {f : α → Option β} {g : α → β} : ∀ {l : List α},
    (∀ x ∈ l, f x = some (g x)) → l.mapM f = some (l.map g)
  | [], _ => rfl
  | x :: l, h => by
    obtain ⟨hx, hl⟩ := List.forall_mem_cons.1 h
    rw [List.mapM_cons, hx, mapM_eq_map hl]
    rfl

/-! ### Rows filled up -/

theorem cellLines_ne_nil (cell : List Char) : cellLines cell ≠ [] := by
  unfold cellLines
  split
  · simp
  · next hne => exact hne

/-- **A cell has a line**, in a row that is filled up. -/
theorem ne_nil_of_mem_fillRow {r : List (List Char)} {cell : List (List Char)}
    (h : cell ∈ fillRow n r) : cell ≠ [] := by
  rcases List.mem_append.1 h with h | h
  · obtain ⟨c, -, rfl⟩ := List.mem_map.1 h
    exact cellLines_ne_nil c
  · rw [List.eq_of_mem_replicate h]
    simp

theorem length_le_columnCount {r : List (List Char)} : ∀ {rows : List (List (List Char))},
    r ∈ rows → r.length ≤ columnCount rows
  | q :: rows, h => by
    show r.length ≤ max q.length (columnCount rows)
    rcases List.mem_cons.1 h with rfl | h
    · exact Nat.le_max_left _ _
    · exact (length_le_columnCount h).trans (Nat.le_max_right _ _)

/-- **All rows that are filled up have one length.** -/
theorem length_fillRow {r : List (List Char)} (h : r.length ≤ n) : (fillRow n r).length = n := by
  unfold fillRow
  rw [List.length_append, List.length_map, List.length_replicate]
  omega

/-- A table of rows of one length whose cells have lines. -/
def Full (n : ℕ) (table : List Row) : Prop :=
  ∀ row ∈ table, row.length = n ∧ ∀ cell ∈ row, cell ≠ []

theorem full_fillRow (rows : List (List (List Char))) :
    Full (columnCount rows) (rows.map (fillRow (columnCount rows))) := by
  intro row hrow
  obtain ⟨r, hr, rfl⟩ := List.mem_map.1 hrow
  exact ⟨length_fillRow (length_le_columnCount hr), fun cell hcell => ne_nil_of_mem_fillRow hcell⟩

/-! ### The widths of the columns -/

/-- The widths of the columns with a row taken in. -/
def widen (width : List Char → Nat) (ws : List ℕ) (row : Row) : List ℕ :=
  List.zipWith max (row.map (cellWidth width)) ws

theorem widen?_eq : ∀ {ws : List ℕ} {row : Row}, row.length = ws.length →
    (∀ cell ∈ row, cell ≠ []) → widen? width ws row = some (widen width ws row)
  | [], [], _, _ => rfl
  | w :: ws, cell :: cells, hlen, h => by
    obtain ⟨hcell, hcells⟩ := List.forall_mem_cons.1 h
    have hwidest : (cell.map width).max? = some (cellWidth width cell) :=
      max?_eq (by simpa using hcell)
    rw [widen?, hwidest, widen?_eq (by simpa using hlen) hcells]
    show some (max w (cellWidth width cell) :: _) = _
    rw [Nat.max_comm]
    rfl

theorem length_widen (h : row.length = ws.length) : (widen width ws row).length = ws.length := by
  simp [widen, h]

theorem foldlM_widen? : ∀ {table : List Row} {ws : List ℕ}, Full ws.length table →
    table.foldlM (widen? width) ws = some (table.foldl (widen width) ws)
  | [], _, _ => rfl
  | row :: table, ws, h => by
    obtain ⟨⟨hlen, hcells⟩, htable⟩ := List.forall_mem_cons.1 h
    have hrest : Full (widen width ws row).length table := by
      rw [length_widen hlen]
      exact htable
    rw [List.foldlM_cons, widen?_eq hlen hcells, List.foldl_cons]
    exact foldlM_widen? hrest

theorem zipWith_max_left_comm : ∀ as bs ws : List ℕ, List.zipWith max as (List.zipWith max bs ws) =
    List.zipWith max bs (List.zipWith max as ws)
  | a :: as, b :: bs, w :: ws => by
    simp only [List.zipWith_cons_cons, zipWith_max_left_comm as bs ws, Nat.max_left_comm]
  | [], bs, ws => by simp
  | as, [], ws => by simp
  | as, bs, [] => by simp

/-- A row that is taken in first may as well be taken in last. -/
theorem foldl_widen_widen (row : Row) : ∀ (table : List Row) (ws : List ℕ),
    table.foldl (widen width) (widen width ws row) = widen width (table.foldl (widen width) ws) row
  | [], _ => rfl
  | r :: table, ws => by
    have hswap : widen width (widen width ws row) r = widen width (widen width ws r) row :=
      zipWith_max_left_comm _ _ _
    rw [List.foldl_cons, hswap, foldl_widen_widen row table, List.foldl_cons]

theorem foldl_widen (n : ℕ) : ∀ table : List Row,
    table.foldl (widen width) (List.replicate n 0) = columnWidths width n table
  | [] => rfl
  | row :: table => by
    rw [List.foldl_cons, foldl_widen_widen, foldl_widen n table]
    rfl

theorem length_columnWidths (width : List Char → Nat) : ∀ {table : List Row}, Full n table →
    (columnWidths width n table).length = n
  | [], _ => List.length_replicate
  | row :: table, h => by
    obtain ⟨⟨hlen, -⟩, htable⟩ := List.forall_mem_cons.1 h
    have hrest := length_columnWidths width htable
    show (widen width (columnWidths width n table) row).length = n
    rw [length_widen (hlen.trans hrest.symm), hrest]

/-! ### The lines of the rows -/

theorem pieces?_eq {k : ℕ} : ∀ {ws : List ℕ} {row : Row}, row.length = ws.length →
    pieces? width k ws row = some (List.zipWith (cellPiece width k) ws row)
  | [], [], _ => rfl
  | w :: ws, cell :: cells, hlen => by
    rw [pieces?, pieces?_eq (by simpa using hlen)]
    rfl

theorem rowLines?_eq (hlen : row.length = ws.length) (hne : row ≠ []) :
    rowLines? width ws row = some (rowLines width ws row) := by
  have hheight : (row.map List.length).max? = some (rowHeight row) := max?_eq (by simpa using hne)
  have hbody : (List.range (rowHeight row)).mapM (fun k => do
      let pieces ← pieces? width k ws row
      return '|' :: Text.joinWith ['|'] pieces ++ ['|']) =
      some ((List.range (rowHeight row)).map (rowLine width ws row)) :=
    mapM_eq_map fun k _ => by
      rw [pieces?_eq hlen]
      rfl
  rw [rowLines?, hheight, Option.bind_eq_bind, Option.bind_some, hbody]
  rfl

/-- **The grid of a table is always drawn**: the greatest of no numbers is never asked for. -/
theorem draw?_eq (width : List Char → Nat) (rows : List (List (List Char))) :
    draw? width rows = some (draw width rows) := by
  have hfull := full_fillRow rows
  unfold draw? draw
  dsimp only
  cases rows with
  | nil => rfl
  | cons r rest =>
    set n := columnCount (r :: rest) with hn
    set table := (r :: rest).map (fillRow n) with htable
    have hfirst : (fillRow n r).length = n :=
      (hfull _ (List.mem_map_of_mem List.mem_cons_self)).1
    by_cases h : n = 0
    · have hempty : fillRow n r = [] := List.length_eq_zero_iff.1 (hfirst.trans h)
      rw [if_pos h, htable, List.map_cons, hempty]
      rfl
    · have hne : (fillRow n r).isEmpty = false := by
        cases hr : fillRow n r with
        | nil =>
          rw [hr] at hfirst
          exact absurd hfirst.symm h
        | cons cell cells => rfl
      have hws : table.foldlM (widen? width) (List.replicate (fillRow n r).length 0) =
          some (columnWidths width n table) := by
        rw [hfirst, foldlM_widen? (by rw [List.length_replicate]; exact hfull), foldl_widen]
      have hbody : table.mapM (rowLines? width (columnWidths width n table)) =
          some (table.map (rowLines width (columnWidths width n table))) :=
        mapM_eq_map fun row hrow => by
          obtain ⟨hlen, -⟩ := hfull row hrow
          refine rowLines?_eq (hlen.trans (length_columnWidths width hfull).symm) ?_
          rintro rfl
          exact h hlen.symm
      rw [if_neg h]
      show (if (fillRow n r).isEmpty = true then _ else _) = _
      rw [hne, if_neg Bool.false_ne_true, hws, Option.bind_eq_bind, Option.bind_some, hbody, lines,
        List.flatMap_def]
      rfl

/-- The grid of the rows of a table, none where the greatest of no numbers would be asked for. -/
def drawRows? (rows : List (List String)) : Option String :=
  (draw? Text.width (rows.map (·.map String.toList))).map String.ofList

theorem drawRows?_eq (rows : List (List String)) :
    drawRows? rows = some (Bulletin.Page.drawRows rows) := by
  rw [drawRows?, draw?_eq]
  rfl

end Bulletin.Proofs.Page.Maxima
