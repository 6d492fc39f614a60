import Bulletin.Proofs.Page.Deferred
import Bulletin.Proofs.Page.Grid

/-! # Preformatted blocks

Grids and the values of code are set between `[code]` and `[/code]`, and the last pass goes over the
page with these blocks in it. It leaves them as they are (`preformatted_whole`): no line feed of a
grid stands after another or after a list marker, since every line of a grid ends with a border, and
the brackets around a block keep its ends from being trimmed. The same goes for the trimming of a
footnote.

* `infix_rawPage`: a block that a node met outside of tables shows stands in the page before the last
  pass; `infix_tidy`: the pass leaves it whole.
* `tableRows_of_shaped`: the rows of a table that is made of rows made of cells. -/

namespace Bulletin.Proofs.Page.Preformatted

open Bulletin.Page
open Bulletin.Mdast (Node Leaf Branch)
open Bulletin.Proofs.Page.Cut Bulletin.Proofs.Page.Tidy Bulletin.Proofs.Page.Walk
open Bulletin.Proofs.Page.Queue Bulletin.Proofs.Page.Whole Bulletin.Proofs.Page.Deferred

variable {o : PageOptions} {ns : List Node}

/-! ### Blocks under the last pass -/

/-- A preformatted block as it stands on a page. -/
def block (content : String) : List Char := ("[code]" ++ content ++ "[/code]").toList

theorem block_eq (content : String) :
    block content = "[code]".toList ++ (content.toList ++ "[/code]".toList) := by
  simp [block]

/-- What ends with a character that the end of a text does not have occurs before that end. -/
theorem infix_of_infix_append {u a b : List Char} {c : Char} (hc : c ∉ b) (h : u ++ [c] <:+: a ++ b) :
    u ++ [c] <:+: a := by
  induction b using List.reverseRecOn with
  | nil => simpa using h
  | append_singleton b d ih =>
    rw [List.mem_append, List.mem_singleton, not_or] at hc
    rw [← List.append_assoc, List.infix_concat_iff, concat_suffix_concat] at h
    rcases h with ⟨hcd, -⟩ | h
    · exact absurd hcd hc.2
    · exact ih hc.1 h

/-- A text in which no line feed is one too many: none after two others, and none after a list
marker. -/
def Tight (s : List Char) : Prop := ¬ gap ++ ['\n'] <:+: s ∧ ¬ marker ++ ['\n'] <:+: s

instance (s : List Char) : Decidable (Tight s) := by
  unfold Tight; infer_instance

theorem tight_block {content : String} (h : Tight content.toList) : Tight (block content) := by
  have hend : '\n' ∉ "[/code]".toList := by decide
  have hstart : ∀ u : List Char, u = gap ∨ u = marker → ∀ s : List Char,
      u ++ ['\n'] <:+: "[code]".toList ++ s → u ++ ['\n'] <:+: s := by
    rintro u (rfl | rfl) s hu <;>
      simpa [List.infix_cons_iff, show "[code]".toList = ['[', 'c', 'o', 'd', 'e', ']'] by decide]
        using hu
  rw [block_eq]
  exact ⟨fun hi => h.1 (infix_of_infix_append hend (hstart _ (Or.inl rfl) _ hi)),
    fun hi => h.2 (infix_of_infix_append hend (hstart _ (Or.inr rfl) _ hi))⟩

/-- **A grid is tight**, whatever the texts of its cells are. -/
theorem tight_drawRows (rows : List (List String)) : Tight (drawRows rows).toList := by
  have hnil : '\n' ∉ ([] : List Char) := by simp
  have hchain : List.IsChain Grid.Bordered (drawRows rows).toList := by
    simpa [drawRows] using Grid.isChain_draw hnil hnil Text.width (rows.map (·.map String.toList))
  refine ⟨fun hi => ?_, fun hi => ?_⟩
  · have h := hchain.infix hi
    simp [Grid.Bordered, Grid.borders] at h
  · have h := hchain.infix hi
    simp [Grid.Bordered, Grid.borders] at h

/-- **Trimming leaves a block whole.** -/
theorem infix_strip {content s : String} (h : block content <:+: s.toList) :
    block content <:+: (Text.strip s).toList := by
  have hhead : (block content).head? = some '[' := by simp [block]
  have hlast : (block content).getLast? = some ']' := by
    rw [block, String.toList_append, List.getLast?_append_of_ne_nil _ (by decide)]
    decide
  rw [Text.strip, String.toList_ofList]
  exact infix_trim hhead hlast (by decide) (by decide) h

/-- **The last pass leaves a tight block whole.** -/
theorem infix_tidy {content s : String} (ht : Tight (block content))
    (h : block content <:+: s.toList) : block content <:+: (tidy s).toList := by
  have hhead : '\n' ∉ "[code]".toList := by decide
  have hs := infix_strip h
  rw [block_eq] at ht hs ⊢
  rw [toList_tidy]
  exact infix_cut (by decide) hhead ht.2 (infix_cut (by decide) hhead ht.1 hs)

/-! ### Blocks of nodes on a page -/

theorem infix_wrap {b : Branch} (content : String) :
    content.toList <:+: (wrap o content b).toList := by
  have hmid : ∀ s t : String, content.toList <:+: (s ++ content ++ t).toList := fun s t =>
    ⟨s.toList, t.toList, by simp⟩
  cases b with
  | container k =>
    cases k with
    | listItem =>
      rw [wrap]
      split_ifs
      · exact ⟨"[*]".toList, [], by simp⟩
      · exact ⟨"[*]".toList, ['\n'], by simp⟩
    | paragraph => exact hmid _ _
    | blockquote => exact hmid _ _
    | emphasis => exact hmid _ _
    | strong => exact hmid _ _
    | delete => exact hmid _ _
    | _ => exact List.infix_rfl
  | heading level => exact hmid _ _
  | list ordered start => exact hmid _ _
  | link url title => exact hmid _ _
  | linkReference identifier label => exact hmid _ _
  | _ => exact List.infix_rfl

theorem infix_of_each : ∀ {ns : List Node} {m : Node},
    (∀ n ∈ ns, m ∈ met n → (yieldOf o {} m).text.toList <:+: (yieldOf o {} n).text.toList) →
      m ∈ metEach ns → (yieldOf o {} m).text.toList <:+: (yields o {} ns).text.toList
  | n :: ns, m, h, hm => by
    rw [List.forall_mem_cons] at h
    rw [metEach, List.mem_append] at hm
    rw [yields, append_text, String.toList_append]
    rcases hm with hm | hm
    · exact (h.1 hm).trans (List.prefix_append _ _).isInfix
    · exact (infix_of_each h.2 hm).trans (List.suffix_append _ _).isInfix

theorem infix_yieldOf (n m : Node) :
    m ∈ met n → (yieldOf o {} m).text.toList <:+: (yieldOf o {} n).text.toList := by
  induction n using Node.induct with
  | leaf l p =>
    intro hm
    rw [met, List.mem_singleton] at hm
    rw [hm]
  | branch b ns p ih =>
    intro hm
    rw [met, List.mem_cons] at hm
    rcases hm with rfl | hm
    · exact List.infix_rfl
    · split_ifs at hm with hf
      · rw [yieldOf_of_flows hf]
        exact (infix_of_each ih hm).trans (infix_wrap _)
      · cases hm

/-- **The text of a node that a walk meets** stands in the text of the walk. -/
theorem infix_yields {m : Node} (hm : m ∈ metEach ns) :
    (yieldOf o {} m).text.toList <:+: (yields o {} ns).text.toList :=
  infix_of_each (fun n _ => infix_yieldOf n m) hm

theorem infix_intercalate {sep s : String} : ∀ {ss : List String}, s ∈ ss →
    s.toList <:+: (sep.intercalate ss).toList
  | [t], h => by rw [List.mem_singleton.1 h]; exact List.infix_rfl
  | t :: t' :: ss, h => by
    rw [String.intercalate_cons_cons, String.toList_append, String.toList_append]
    rcases List.mem_cons.1 h with rfl | h
    · exact ⟨[], _, by rw [List.nil_append, ← List.append_assoc]⟩
    · exact (infix_intercalate h).trans (List.suffix_append _ _).isInfix

/-- **A block of a node outside of tables** stands on the page before the last pass, in its body or in
the line of a footnote. -/
theorem infix_rawPage (h : TextualEach ns) {m : Node} (hm : m ∈ outsideEach ns) {content : String}
    (hc : block content <:+: (yieldOf o {} m).text.toList) :
    block content <:+: (rawPage o ns).toList := by
  rw [← (perm_outside ns).mem_iff, walked, metEach_append, metEach_flatMap, List.mem_append,
    List.mem_flatMap] at hm
  rw [rawPage, String.toList_append, String.toList_append]
  rcases hm with hm | ⟨f, hf, hm⟩
  · rw [pageText_eq h.fits]
    have hbody := hc.trans (infix_yields hm)
    exact hbody.trans ⟨[], _, by rw [List.nil_append, ← List.append_assoc]⟩
  · have htext : TextualEach f.children := textual_breadthFirst _ (textual_footnotesMet h) f hf
    have hnote : block content <:+: (noteLine o f).toList := by
      rw [noteLine, String.toList_append, pageText_eq htext.fits]
      exact (infix_strip (hc.trans (infix_yields hm))).trans (List.suffix_append _ _).isInfix
    have hnotes : block content <:+: ("\n".intercalate ((notes ns).map (noteLine o))).toList :=
      hnote.trans (infix_intercalate (List.mem_map_of_mem hf))
    exact hnotes.trans (List.suffix_append _ _).isInfix

/-! ### The rows of a table -/

/-- The rows that the walk over the children of a table leaves behind. -/
def tableRows (o : PageOptions) (cs : List Node) : List (List String) :=
  (renderChildren o cs { state := { table := some [] } }).2.state.table.getD []

/-- The text that a node gives in the cell of a table. -/
def cellPart (o : PageOptions) (n : Node) : String :=
  (visit o n { state := { row := some [] } }).1.toOption.elim "" (·.text.display)

/-- The text of a cell, given by that of its children. -/
def cellText (o : PageOptions) (cell : Node) : String := String.join (cell.children.map (cellPart o))

/-- Whether a node is a cell. -/
def isCell : Node → Bool
  | .branch (.container .tableCell) _ _ => true
  | _ => false

/-- Whether a node is a row. -/
def isRow : Node → Bool
  | .branch (.container .tableRow) _ _ => true
  | _ => false

theorem eq_of_isCell {n : Node} (h : isCell n = true) :
    ∃ ns p, n = .branch (.container .tableCell) ns p := by
  cases n with
  | leaf l p => cases h
  | branch b ns p =>
    cases b with
    | container k => cases k <;> first | exact ⟨ns, p, rfl⟩ | cases h
    | _ => cases h

theorem eq_of_isRow {n : Node} (h : isRow n = true) :
    ∃ ns p, n = .branch (.container .tableRow) ns p := by
  cases n with
  | leaf l p => cases h
  | branch b ns p =>
    cases b with
    | container k => cases k <;> first | exact ⟨ns, p, rfl⟩ | cases h
    | _ => cases h

/-- **A table made of rows made of cells**: no cell has another below it, inner tables apart. -/
def Shaped (cs : List Node) : Prop :=
  ∀ row ∈ cs, isRow row = true ∧
    ∀ cell ∈ row.children, isCell cell = true ∧ ∀ m ∈ outsideEach cell.children, isCell m = false

instance (cs : List Node) : Decidable (Shaped cs) := by
  unfold Shaped; infer_instance

theorem mem_outsideEach_of_mem_metEach {m : Node} (hm : m ∈ metEach ns) : m ∈ outsideEach ns :=
  (perm_outsideEach_met ns).mem_iff.2 (List.mem_append_left _ hm)

theorem gathered_of_each {at_ : Place} : ∀ {ns : List Node},
    (∀ n ∈ ns, ((∀ m ∈ met n, isRow m = false ∧ isCell m = false) → (yieldOf o at_ n).rows = []) ∧
      ((∀ m ∈ met n, isCell m = false) → (yieldOf o at_ n).cells = [])) →
    ((∀ m ∈ metEach ns, isRow m = false ∧ isCell m = false) → (yields o at_ ns).rows = []) ∧
      ((∀ m ∈ metEach ns, isCell m = false) → (yields o at_ ns).cells = [])
  | [], _ => by rw [yields]; exact ⟨fun _ => rfl, fun _ => rfl⟩
  | n :: ns, h => by
    rw [List.forall_mem_cons] at h
    have ih := gathered_of_each h.2
    rw [metEach, List.forall_mem_append, List.forall_mem_append, yields, append_rows, append_cells]
    exact ⟨fun hm => by rw [h.1.1 hm.1, ih.1 hm.2, List.nil_append],
      fun hm => by rw [h.1.2 hm.1, ih.2 hm.2, List.nil_append]⟩

/-- **Rows and cells come of rows and cells** that are met. -/
theorem gathered (n : Node) : ∀ at_ : Place,
    ((∀ m ∈ met n, isRow m = false ∧ isCell m = false) → (yieldOf o at_ n).rows = []) ∧
      ((∀ m ∈ met n, isCell m = false) → (yieldOf o at_ n).cells = []) := by
  induction n using Node.induct with
  | leaf l p => intro at_; rw [yieldOf]; cases l <;> exact ⟨fun _ => rfl, fun _ => rfl⟩
  | branch b ns p ih =>
    intro at_
    rw [met, List.forall_mem_cons, List.forall_mem_cons]
    by_cases hf : flows b = true
    · have h := gathered_of_each fun n hn => ih n hn at_
      rw [if_pos hf, yieldOf_of_flows hf]
      exact ⟨fun hm => h.1 hm.2, fun hm => h.2 hm.2⟩
    · rw [yieldOf.eq_def]
      cases b with
      | container k =>
        cases k with
        | tableRow =>
          dsimp only
          refine ⟨fun hm => absurd hm.1.1 (by simp [isRow]), fun _ => ?_⟩
          split_ifs <;> rfl
        | tableCell =>
          exact ⟨fun hm => absurd hm.1.2 (by simp [isCell]),
            fun hm => absurd hm.1 (by simp [isCell])⟩
        | _ => exact absurd rfl hf
      | table align => exact ⟨fun _ => rfl, fun _ => rfl⟩
      | footnoteDefinition identifier label => exact ⟨fun _ => rfl, fun _ => rfl⟩
      | _ => exact absurd rfl hf

theorem cells_eq_nil {at_ : Place} (h : ∀ m ∈ metEach ns, isCell m = false) :
    (yields o at_ ns).cells = [] :=
  (gathered_of_each fun n _ => gathered n at_).2 h

theorem cellPart_eq {n : Node} (h : n.Textual) : cellPart o n = (yieldOf o { row := true } n).text := by
  obtain ⟨e, q, hv, -⟩ := visits (o := o) n { state := { row := some [] } } (fits_of_textual n h _)
  rw [cellPart, hv]
  rfl

theorem join_cellPart : ∀ {ks : List Node}, TextualEach ks →
    String.join (ks.map (cellPart o)) = (yields o { row := true } ks).text
  | [], _ => by rw [yields]; rfl
  | k :: ks, h => by
    rw [TextualEach, List.forall_mem_cons] at h
    rw [List.map_cons, String.join_cons, join_cellPart h.2, cellPart_eq h.1, yields, append_text]

theorem tableRows_eq {cs : List Node} (h : TextualEach cs) :
    tableRows o cs = (yields o { table := true } cs).rows := by
  rw [tableRows, renderChildren_eq h]
  rfl

theorem cells_of_shaped : ∀ {cells : List Node}, TextualEach cells →
    (∀ cell ∈ cells, isCell cell = true ∧ ∀ m ∈ outsideEach cell.children, isCell m = false) →
      (yields o { row := true } cells).cells = cells.map (cellText o)
  | [], _, _ => by rw [yields]; rfl
  | cell :: cells, ht, h => by
    rw [TextualEach, List.forall_mem_cons] at ht
    rw [List.forall_mem_cons] at h
    obtain ⟨ks, p, rfl⟩ := eq_of_isCell h.1.1
    have hks : TextualEach ks := Node.textual_branch.1 ht.1
    have hnil : (yields o { row := true } ks).cells = [] :=
      cells_eq_nil fun m hm => h.1.2 m (mem_outsideEach_of_mem_metEach hm)
    have hcell : (yieldOf o { row := true } (.branch (.container .tableCell) ks p)).cells =
        [cellText o (.branch (.container .tableCell) ks p)] := by
      rw [yieldOf, if_pos rfl, cellText, Node.children, join_cellPart hks]
      simp only [hnil, List.nil_append]
    rw [yields, append_cells, cells_of_shaped ht.2 h.2, hcell, List.map_cons, List.singleton_append]

/-- **The rows of a table** that is made of rows made of cells. -/
theorem tableRows_of_shaped {cs : List Node} (ht : TextualEach cs) (h : Shaped cs) :
    tableRows o cs = cs.map fun row => row.children.map (cellText o) := by
  rw [tableRows_eq ht]
  induction cs with
  | nil => rw [yields]; rfl
  | cons row cs ih =>
    rw [TextualEach, List.forall_mem_cons] at ht
    rw [Shaped, List.forall_mem_cons] at h
    obtain ⟨cells, p, rfl⟩ := eq_of_isRow h.1.1
    have hrow : (yieldOf o { table := true } (.branch (.container .tableRow) cells p)).rows =
        [cells.map (cellText o)] := by
      rw [yieldOf, if_pos rfl]
      simp only [cells_of_shaped (Node.textual_branch.1 ht.1) h.1.2]
    rw [yields, append_rows, ih ht.2 h.2, hrow, List.map_cons, Node.children, List.singleton_append]

/-! ### Blocks in the end -/

/-- The value that a node shows in a preformatted block, if it does. -/
def codeValue? : Node → Option Value
  | .leaf (.code v _) _ => some v
  | .leaf (.literal .math v) _ => some v
  | .leaf (.literal .yaml v) _ => some v
  | .leaf (.literal .toml v) _ => some v
  | _ => none

theorem infix_of_codeValue? {m : Node} {v : Value} (h : codeValue? m = some v) :
    block v.display <:+: (yieldOf o {} m).text.toList := by
  have hmid : ∀ t : String, block v.display <:+: ("\n" ++ preformatted v ++ t).toList := fun t =>
    ⟨['\n'], t.toList, by simp [block, preformatted]⟩
  unfold codeValue? at h
  split at h <;> cases h <;> rw [yieldOf]
  · exact hmid "\n"
  · exact hmid "\n"
  · exact hmid "\n\n"
  · exact hmid "\n\n"

theorem infix_of_table {align : Value} {cs : List Node} {p : Option Mdast.Location}
    (h : TextualEach cs) : block (drawRows (tableRows o cs)) <:+:
      (yieldOf o {} (.branch (.table align) cs p)).text.toList := by
  rw [yieldOf, tableRows_eq h]
  exact ⟨[], ['\n'], by simp [block]⟩

/-- **Preformatted blocks are not damaged**: every table that does not stand below another, a row or a
cell is on the page as its grid between `[code]` and `[/code]`, and so is the value of every code,
math, YAML or TOML node outside of tables in which no line feed is one too many. If a table is made of
rows made of cells, its grid is that of the texts of its cells. Nodes in footnotes count as others. -/
theorem preformatted_whole (o : PageOptions) {ns : List Node} {loc : Option Mdast.Location}
    (h : (Node.branch (.container .root) ns loc).Textual) (log : List Record) :
    ∃ page after, render o (.branch (.container .root) ns loc) log = (.ok page, after) ∧
      (∀ align cs p, .branch (.table align) cs p ∈ outsideEach ns →
        block (drawRows (tableRows o cs)) <:+: page.toList ∧
        (Shaped cs → tableRows o cs = cs.map fun row => row.children.map (cellText o))) ∧
      ∀ m ∈ outsideEach ns, ∀ v, codeValue? m = some v → Tight v.display.toList →
        block v.display <:+: page.toList := by
  have hns := textualEach_of_root h
  refine ⟨_, _, render_eq hns loc log, fun align cs p hm => ?_, fun m hm v hv ht => ?_⟩
  · have hcs : TextualEach cs := Node.textual_branch.1 (textual_of_mem_outsideEach hns hm)
    refine ⟨?_, tableRows_of_shaped hcs⟩
    exact infix_tidy (tight_block (tight_drawRows _)) (infix_rawPage hns hm (infix_of_table hcs))
  · exact infix_tidy (tight_block ht) (infix_rawPage hns hm (infix_of_codeValue? hv))

/-- The rows of a table, one cell of which has gaps and a list marker in it. -/
def frame : List Node :=
  [.container .tableRow [.container .tableCell [.text "a\n\n\n[*]", .container .strong [.text "b"]],
    .container .tableCell []]]

/-- A quoted table, and code in a footnote. -/
def framed : List Node :=
  [.container .blockquote [.of (.table (.list [])) frame],
    note "n" [.leaf (.code (.str "[*] \n\n") .null) none]]

theorem preformatted_whole_framed : (Node.container .root framed).Textual ∧ Shaped frame ∧
    Tight "[*] \n\n".toList ∧
    ∃ page after, render {} (.container .root framed) [] = (.ok page, after) ∧
      (frame.map fun row => row.children.map (cellText {})) = [["a\n\n\n[*]\n[b]b[/b]\n", ""]] ∧
      block (drawRows [["a\n\n\n[*]\n[b]b[/b]\n", ""]]) <:+: page.toList ∧
      block "[*] \n\n" <:+: page.toList := by
  have ht : (Node.container .root framed).Textual := by decide
  have hs : Shaped frame := by decide
  have hv : Tight "[*] \n\n".toList := by decide
  obtain ⟨page, after, hr, htable, hcode⟩ := preformatted_whole {} ht []
  obtain ⟨hgrid, hshaped⟩ := htable (.list []) frame none
    (by simp [framed, outsideEach, outside, tabular, Node.container, Node.of])
  have htext : TextualEach frame := by decide
  have hrows : tableRows {} frame = [["a\n\n\n[*]\n[b]b[/b]\n", ""]] :=
    (tableRows_eq htext).trans (by decide +kernel)
  rw [hrows] at hgrid
  have hblock := hcode (.leaf (.code (.str "[*] \n\n") .null) none)
    (by simp [framed, note, outsideEach, outside, tabular, Node.container, Node.of])
    (.str "[*] \n\n") rfl hv
  exact ⟨ht, hs, hv, page, after, hr, (hshaped hs).symm.trans hrows, hgrid, hblock⟩

end Bulletin.Proofs.Page.Preformatted
