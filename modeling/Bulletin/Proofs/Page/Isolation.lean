import Bulletin.Proofs.Page.Essence
import Bulletin.Proofs.Page.Mirror
import Bulletin.Proofs.Page.Siblings

/-! # Tables stand for themselves

A table is walked in a state of its own, and nothing of that state comes out: its visit gives a text
and no effect, the same text wherever it starts, and the options have a say in it only by the size of
headings. The font in particular has none, since code inside a table is shown as it is. So the text
of a table opens no tag of a font (`FontFree`), unless what is shown in the table does so itself.

* `FontFree.append`: texts in a row are free of such tags if each of them is; for that a text must not
  end in the middle of one either.
* `fontFreeYield_yieldOf`: what is walked inside of a table is free of them.
* `table_isolated`: the facts on tables together. -/

namespace Bulletin.Proofs.Page.Isolation

open Bulletin.Page
open Bulletin.Mdast (Node Leaf Branch)
open Bulletin.Proofs.Page.Walk Bulletin.Proofs.Page.Queue
open Bulletin.Proofs.Page.Fitting (renderChildren_isOk_iff)
open Bulletin.Proofs.Page.Siblings (isLocal)
open Bulletin.Proofs.Page.Essence (inEssence_renderChildren)
open Bulletin.Proofs.Page.Mirror (written)
open Bulletin.Proofs.Page.Grid (frame Frameless infix_append_cons gridLines draw_eq)
open Bulletin.Proofs.Number.Written (numeric_headingSize)
open Runs (bind_ok bind_error)

variable {o o' : PageOptions} {at_ : Place}

/-! ### Texts without a tag of a font -/

/-- How the tag of a font starts. -/
abbrev opener : List Char := ['[', 'f', 'o', 'n', 't']

/-- **A text that opens no tag of a font** and does not end where one might have begun. -/
structure FontFree (s : List Char) : Prop where
  closed : ¬ opener <:+: s
  ended : ∀ q ∈ opener.inits, q ≠ [] → ¬ q <:+ s

instance (s : List Char) : Decidable (FontFree s) :=
  decidable_of_iff (¬ opener <:+: s ∧ ∀ q ∈ opener.inits, q ≠ [] → ¬ q <:+ s)
    ⟨fun h => ⟨h.1, h.2⟩, fun h => ⟨h.closed, h.ended⟩⟩

section FontFree
variable {s t : List Char}

theorem fontFree_of_notMem (h : '[' ∉ s) : FontFree s where
  closed hi := h (hi.subset (by decide))
  ended q hq hne hs := by
    have hmem : ∀ q ∈ opener.inits, q ≠ [] → '[' ∈ q := by decide
    exact h (hs.subset (hmem q hq hne))

theorem fontFree_of_end {c : Char} (hc : c ∉ opener) (h : ¬ opener <:+: s ++ [c]) :
    FontFree (s ++ [c]) where
  closed := h
  ended q hq hne hs := by
    obtain rfl | ⟨t, rfl, -⟩ := List.suffix_concat_iff.1 hs
    · exact hne rfl
    · exact hc (((List.mem_inits _ _).1 hq).subset (by simp))

theorem FontFree.append (hs : FontFree s) (ht : FontFree t) : FontFree (s ++ t) where
  closed hi := by
    rcases List.infix_append_iff.1 hi with h | h | ⟨a, b, hab, ha, hb⟩
    · exact hs.closed h
    · exact ht.closed h
    · -- the tag stands across the seam, so that the first text ends with a start of it
      by_cases hne : a = []
      · rw [hne, List.nil_append] at hab
        exact ht.closed (hab ▸ hb.isInfix)
      · exact hs.ended a ((List.mem_inits _ _).2 ⟨b, hab.symm⟩) hne ha
  ended q hq hne h := by
    rcases List.suffix_or_suffix_of_suffix h (List.suffix_append s t) with hqt | ⟨r, rfl⟩
    · exact ht.ended q hq hne hqt
    · -- all of the second text is the end of such a start, whose beginning ends the first text
      have hrs : r <:+ s := by
        obtain ⟨m, hm⟩ := h
        exact ⟨m, List.append_cancel_right (by rw [List.append_assoc, hm])⟩
      have hr : r ∈ opener.inits :=
        (List.mem_inits _ _).2 ((List.prefix_append r t).trans ((List.mem_inits _ _).1 hq))
      by_cases hnil : r = []
      · subst hnil
        exact ht.ended t hq hne (List.suffix_refl t)
      · exact hs.ended r hr hnil hrs

theorem fontFree_bracketed (h : '[' ∉ s) (hf : ¬ opener.tail <:+: s) :
    FontFree ('[' :: (s ++ [']', ' '])) := by
  have he : '[' :: (s ++ [']', ' ']) = ('[' :: (s ++ [']'])) ++ [' '] := by simp
  rw [he]
  refine fontFree_of_end (by decide) fun hi => ?_
  rw [← he] at hi
  rcases List.infix_cons_iff.1 hi with hp | hi
  · have hname : opener.tail <+: s ++ [']', ' '] := (List.cons_prefix_cons.1 hp).2
    exact (infix_append_cons (by decide) hname.isInfix).elim hf (by decide)
  · have hmem := hi.subset (show '[' ∈ opener by decide)
    simp [h] at hmem

end FontFree

/-! ### What a table shows -/

/-- The values that a node shows in the text around it, also those of image references. -/
def payload : Node → List Value
  | .leaf (.imageReference identifier alt _) _ => [identifier, alt]
  | n => written n

/-- A value in whose text there is neither an opening bracket nor the name of the tag. -/
def Unfonted (v : Value) : Prop :=
  '[' ∉ v.display.toList ∧ ¬ "font".toList <:+: v.display.toList

instance (v : Value) : Decidable (Unfonted v) := inferInstanceAs (Decidable (_ ∧ _))

theorem Unfonted.fontFree {v : Value} (h : Unfonted v) : FontFree v.display.toList :=
  fontFree_of_notMem h.1

theorem fontFree_between {before s after : String} (hb : FontFree before.toList)
    (hs : FontFree s.toList) (ha : FontFree after.toList) :
    FontFree (before ++ s ++ after).toList := by
  rw [String.toList_append, String.toList_append]
  exact (hb.append hs).append ha

theorem fontFree_preformatted {v : Value} (h : Unfonted v) : FontFree (preformatted v).toList :=
  fontFree_between (by decide) h.fontFree (by decide)

/-- **The text of a branch opens no tag of a font**, if that of its children opens none. -/
theorem fontFree_wrap (hcheck : o.check = .ok ()) {b : Branch} {ns : List Node}
    {loc : Option Mdast.Location} (hb : ∀ v ∈ payload (.branch b ns loc), Unfonted v)
    {content : String} (h : FontFree content.toList) : FontFree (wrap o content b).toList := by
  cases b with
  | container k =>
    cases k with
    | listItem =>
      have hline : FontFree (content ++ "\n").toList := by
        rw [String.toList_append]
        exact h.append (by decide)
      rw [wrap, String.toList_append]
      refine FontFree.append (by decide) ?_
      split_ifs
      · exact h
      · exact hline
    | paragraph => exact fontFree_between (by decide) h (by decide)
    | blockquote => exact fontFree_between (by decide) h (by decide)
    | emphasis => exact fontFree_between (by decide) h (by decide)
    | strong => exact fontFree_between (by decide) h (by decide)
    | delete => exact fontFree_between (by decide) h (by decide)
    | _ => exact h
  | heading level =>
    have hsize : '[' ∉ o.headingSize.display.toList := fun hm =>
      absurd (numeric_headingSize hcheck '[' hm) (by decide)
    exact fontFree_between (fontFree_between (by decide) (fontFree_of_notMem hsize) (by decide)) h
      (by decide)
  | list ordered start =>
    have hopen : FontFree (if ordered.truthy then "[list=1]" else "[list]").toList := by
      split_ifs <;> decide
    exact fontFree_between (fontFree_between (by decide) hopen (by decide)) h (by decide)
  | link url title =>
    have hurl : FontFree url.display.toList := (hb _ (List.mem_singleton_self _)).fontFree
    exact fontFree_between (fontFree_between (by decide) hurl (by decide)) h (by decide)
  | linkReference identifier label =>
    have hid : FontFree identifier.display.toList := (hb _ (List.mem_singleton_self _)).fontFree
    exact fontFree_between (fontFree_between (by decide) hid (by decide)) h (by decide)
  | table align => exact h
  | footnoteDefinition identifier label => exact h

theorem leafText_monospace (hin : (at_.table || at_.row) = true) {k : Mdast.Literal}
    (hk : k = .inlineCode ∨ k = .inlineMath) {v : Value} :
    leafText o at_ (.literal k v) = v.display := by
  obtain ⟨t, r⟩ := at_
  rcases hk with rfl | rfl <;> cases t <;> cases r <;> first | rfl | exact absurd hin (by decide)

theorem fontFree_leafYield (hin : (at_.table || at_.row) = true) {l : Leaf}
    {loc : Option Mdast.Location} (hl : ∀ v ∈ payload (.leaf l loc), Unfonted v) :
    FontFree (leafYield o at_ l).text.toList := by
  cases l with
  | literal k v =>
    have hv : Unfonted v := hl _ (List.mem_singleton_self _)
    cases k with
    | text => exact hv.fontFree
    | html => exact hv.fontFree
    | inlineCode =>
      show FontFree (leafText o at_ (.literal .inlineCode v)).toList
      rw [leafText_monospace hin (.inl rfl)]
      exact hv.fontFree
    | inlineMath =>
      show FontFree (leafText o at_ (.literal .inlineMath v)).toList
      rw [leafText_monospace hin (.inr rfl)]
      exact hv.fontFree
    | math => exact fontFree_between (by decide) (fontFree_preformatted hv) (by decide)
    | yaml => exact fontFree_between (by decide) (fontFree_preformatted hv) (by decide)
    | toml => exact fontFree_between (by decide) (fontFree_preformatted hv) (by decide)
  | code v lang =>
    have hv : Unfonted v := hl _ (List.mem_singleton_self _)
    exact fontFree_between (by decide) (fontFree_preformatted hv) (by decide)
  | image url alt title =>
    have hv : Unfonted url := hl _ (List.mem_singleton_self _)
    exact fontFree_between (by decide) hv.fontFree (by decide)
  | footnoteReference identifier label =>
    have hv : Unfonted identifier := hl _ (List.mem_singleton_self _)
    exact fontFree_between (by decide) hv.fontFree (by decide)
  | imageReference identifier alt label =>
    have hid : Unfonted identifier := hl _ (by simp [payload])
    have halt : Unfonted alt := hl _ (by simp [payload])
    have hname : FontFree ("[" ++ identifier.display ++ "] ").toList := by
      rw [String.toList_append, String.toList_append, List.append_assoc]
      exact fontFree_bracketed hid.1 hid.2
    show FontFree ("[" ++ identifier.display ++ "] " ++ alt.display).toList
    rw [String.toList_append]
    exact hname.append halt.fontFree
  | thematicBreak => show FontFree "\n\n[line]\n\n".toList; decide
  | lineBreak => show FontFree "\n\n".toList; decide
  | definition d => show FontFree "".toList; decide
  | foreign k v name => show FontFree "".toList; decide

theorem fontFree_drawRows {rows : List (List String)}
    (h : ∀ row ∈ rows, ∀ cell ∈ row, FontFree cell.toList) : FontFree (drawRows rows).toList := by
  have hframe : Frameless opener := ⟨by decide, by simp [frame]⟩
  have hclosed : ¬ opener <:+: (drawRows rows).toList := by
    -- the tag has no line feed, so that it stays when these are taken out of the grid
    intro hi
    have hf := hi.filter (· ≠ '\n')
    rw [drawRows, String.toList_ofList] at hf
    obtain ⟨row, hrow, cell, hcell, hu⟩ := hframe.infix_draw hf
    obtain ⟨texts, htexts, rfl⟩ := List.mem_map.1 hrow
    obtain ⟨text, htext, rfl⟩ := List.mem_map.1 hcell
    exact (h texts htexts text htext).closed hu
  rw [drawRows, String.toList_ofList] at hclosed ⊢
  rw [draw_eq] at hclosed ⊢
  set ls := gridLines Text.width (rows.map (·.map String.toList))
  rcases List.eq_nil_or_concat' ls with hnil | ⟨init, last, hlast⟩
  · rw [hnil]
    decide
  · rw [hlast, List.flatMap_append, List.flatMap_singleton, ← List.append_assoc] at hclosed ⊢
    exact fontFree_of_end (by decide) hclosed

/-- Whether no text of a yield opens a tag of a font, also none in cells. -/
structure FontFreeYield (y : Yield) : Prop where
  text : FontFree y.text.toList
  rows : ∀ row ∈ y.rows, ∀ cell ∈ row, FontFree cell.toList
  cells : ∀ cell ∈ y.cells, FontFree cell.toList

theorem fontFreeYield_of_text {y : Yield} (h : FontFree y.text.toList) (hr : y.rows = [])
    (hc : y.cells = []) : FontFreeYield y :=
  ⟨h, by simp [hr], by simp [hc]⟩

theorem FontFreeYield.append {y z : Yield} (hy : FontFreeYield y) (hz : FontFreeYield z) :
    FontFreeYield (y ++ z) where
  text := by
    rw [append_text, String.toList_append]
    exact hy.text.append hz.text
  rows := List.forall_mem_append.2 ⟨hy.rows, hz.rows⟩
  cells := List.forall_mem_append.2 ⟨hy.cells, hz.cells⟩

theorem fontFreeYield_of_each : ∀ {ns : List Node}, (∀ n ∈ ns, FontFreeYield (yieldOf o at_ n)) →
    FontFreeYield (yields o at_ ns)
  | [], _ => by
    rw [yields]
    exact fontFreeYield_of_text (by decide) rfl rfl
  | n :: ns, h => by
    rw [List.forall_mem_cons] at h
    rw [yields]
    exact h.1.append (fontFreeYield_of_each h.2)

/-- Whether a node shows no bracket and no name of such a tag. -/
def Unmarked (n : Node) : Prop := ∀ v ∈ payload n, Unfonted v

instance (n : Node) : Decidable (Unmarked n) := inferInstanceAs (Decidable (∀ v ∈ payload n, _))

/-- **What is walked inside of a table opens no tag of a font.** -/
theorem fontFreeYield_yieldOf (hcheck : o.check = .ok ()) (n : Node) : n.All Unmarked →
    ∀ at_ : Place, (at_.table || at_.row) = true → FontFreeYield (yieldOf o at_ n) := by
  induction n using Node.induct with
  | leaf l loc =>
    intro h at_ hin
    have hl : FontFree (leafYield o at_ l).text.toList := fontFree_leafYield hin (Node.all_leaf.1 h)
    rw [yieldOf]
    cases l <;> exact fontFreeYield_of_text hl rfl rfl
  | branch b ns loc ih =>
    intro h at_ hin
    rw [Node.all_branch] at h
    have hns : ∀ at_ : Place, (at_.table || at_.row) = true → FontFreeYield (yields o at_ ns) :=
      fun at_ hin => fontFreeYield_of_each fun n hn => ih n hn (h.2 n hn) at_ hin
    by_cases hf : flows b = true
    · rw [yieldOf_of_flows hf]
      exact ⟨fontFree_wrap hcheck h.1 (hns at_ hin).text, (hns at_ hin).rows, (hns at_ hin).cells⟩
    · have hempty : FontFree "".toList := by decide
      cases b with
      | table align =>
        rw [yieldOf]
        have hgrid := fontFree_drawRows (hns { table := true } rfl).rows
        exact fontFreeYield_of_text (fontFree_between (by decide) hgrid (by decide)) rfl rfl
      | footnoteDefinition identifier label =>
        rw [yieldOf]
        exact fontFreeYield_of_text hempty rfl rfl
      | container k =>
        cases k with
        | tableRow =>
          rw [yieldOf]
          split_ifs
          · exact ⟨hempty, by simpa using (hns { row := true } rfl).cells, by simp⟩
          · exact fontFreeYield_of_text hempty rfl rfl
        | tableCell =>
          rw [yieldOf]
          split_ifs
          · have hy := hns at_ hin
            refine ⟨hempty, hy.rows, List.forall_mem_append.2 ⟨hy.cells, ?_⟩⟩
            simpa using hy.text
          · exact fontFreeYield_of_text hempty rfl rfl
        | _ => exact absurd rfl hf
      | _ => exact absurd rfl hf

/-! ### The visit of a table -/

/-- The text of a table whose rows are known. -/
def tableText (rows : List (List String)) : String := "[code]" ++ drawRows rows ++ "[/code]\n"

/-- **The options have a say inside of tables by the size of headings alone.** -/
theorem renderChildren_options (hsize : o.headingSize = o'.headingSize) (ns : List Node) {p : Pass}
    (hin : ((place p.state).table || (place p.state).row) = true) :
    (renderChildren o ns p).1 = (renderChildren o' ns p).1 ∧
    (renderChildren o ns p).2.state.table = (renderChildren o' ns p).2.state.table ∧
    (renderChildren o ns p).2.log = (renderChildren o' ns p).2.log := by
  -- both walks are in essence the walk over the essence of the siblings under the second options
  obtain ⟨h, -⟩ := inEssence_renderChildren hsize ns p (.inr hin)
  obtain ⟨h', -⟩ := inEssence_renderChildren (o := o') rfl ns p (.inl rfl)
  rw [h] at h'
  obtain ⟨hr, hq⟩ := Prod.ext_iff.1 h'
  refine ⟨?_, congrArg (·.state.table) hq, congrArg (·.log) hq⟩
  simpa using hr

/-- The walk over what is below a table, which starts in the same state everywhere. -/
theorem exists_walk_table (o : PageOptions) (ns : List Node) :
    ∃ (r : Except Fault String) (y : Yield), ∀ log, renderChildren o ns ⟨{ table := some [] }, log⟩ =
      (r, ⟨addState { table := some [] } y, log ++ y.log⟩) := by
  obtain ⟨r, y, h⟩ := isLocal.renderChildren (o := o) ns { table := true }
  exact ⟨r, y, fun log => h ⟨{ table := some [] }, log⟩ rfl⟩

/-- **The visit of a table** from the walk over what is below it: it gives the grid of its rows and
no effect, and it leaves the state as it is. -/
theorem visit_table {align : Value} {ns : List Node} {loc : Option Mdast.Location}
    {r : Except Fault String} {y : Yield} {p : Pass}
    (h : renderChildren o ns ⟨{ table := some [] }, p.log⟩ =
      (r, ⟨addState { table := some [] } y, p.log ++ y.log⟩)) :
    visit o (.branch (.table align) ns loc) p =
      ((r.map fun _ => tableText y.rows).map plain, ⟨p.state, p.log ++ y.log⟩) := by
  have hiso : isolated { table := some [] } (renderChildren o ns) p =
      (r.map fun text => (text, addState { table := some [] } y), ⟨p.state, p.log ++ y.log⟩) := by
    unfold isolated
    rw [h]
  rw [visit]
  cases r with
  | error e => rw [bind_error hiso]; rfl
  | ok text => rw [bind_ok hiso]; rfl

/-- **The walk over what is below a table is the same** under all options with the same size of
headings, as far as the visit of the table shows it. -/
theorem visit_table_options (hsize : o.headingSize = o'.headingSize) {align : Value} {ns : List Node}
    {loc : Option Mdast.Location} {r : Except Fault String} {y : Yield}
    (h : ∀ log, renderChildren o ns ⟨{ table := some [] }, log⟩ =
      (r, ⟨addState { table := some [] } y, log ++ y.log⟩)) (p : Pass) :
    visit o' (.branch (.table align) ns loc) p =
      ((r.map fun _ => tableText y.rows).map plain, ⟨p.state, p.log ++ y.log⟩) := by
  obtain ⟨r', y', h'⟩ := exists_walk_table o' ns
  have hsame := renderChildren_options hsize ns (p := ⟨{ table := some [] }, []⟩) rfl
  rw [h, h'] at hsame
  obtain ⟨hr, hrows, hlog⟩ : r = r' ∧ some y.rows = some y'.rows ∧ y.log = y'.log := hsame
  rw [hr, Option.some.inj hrows, hlog]
  exact visit_table (h' p.log)

/-- **A table stands for itself.** The visit of a table gives a text and no effect, or a fault, and
it leaves the state as it is; the text, or the fault, is the same in every state and under all options
with the same size of headings. There is a text if all literals in the table are texts. And if
neither an opening bracket nor the name of the tag of a font stands in what is shown in the table,
then no such tag is opened in its text. -/
theorem table_isolated (o : PageOptions) (align : Value) (rows : List Node)
    (loc : Option Mdast.Location) :
    ∃ (r : Except Fault String) (records : List Record),
      (∀ o' : PageOptions, o.headingSize = o'.headingSize → ∀ s log,
        visit o' (.branch (.table align) rows loc) ⟨s, log⟩ = (r.map plain, ⟨s, log ++ records⟩)) ∧
      (TextualEach rows → ∃ text, r = .ok text) ∧
      (o.check = .ok () → (∀ n ∈ rows, n.All Unmarked) →
        ∀ text, r = .ok text → ¬ "[font".toList <:+: text.toList) := by
  obtain ⟨r, y, h⟩ := exists_walk_table o rows
  have hfits : ∀ text, r = .ok text → FitsEach { table := true } rows := by
    rintro text rfl
    exact renderChildren_isOk_iff.1 ⟨text, _, h []⟩
  have hyields : FitsEach { table := true } rows →
      r = .ok (yields o { table := true } rows).text ∧
      y.rows = (yields o { table := true } rows).rows := by
    intro hf
    have he := renderChildren_of_fits (o := o) (p := ⟨{ table := some [] }, []⟩) hf
    rw [h] at he
    obtain ⟨hr, hq⟩ := Prod.ext_iff.1 he
    exact ⟨hr, Option.some.inj (congrArg (·.state.table) hq)⟩
  refine ⟨r.map fun _ => tableText y.rows, y.log,
    fun o' hsize s log => visit_table_options hsize h ⟨s, log⟩, fun ht => ?_,
    fun hcheck hplain text htext => ?_⟩
  · have hf : FitsEach { table := true } rows :=
      fitsEach_iff.2 fun n hn => fits_of_textual n (ht n hn) _
    rw [(hyields hf).1]
    exact ⟨_, rfl⟩
  · cases r with
    | error e => cases htext
    | ok below =>
      cases htext
      rw [(hyields (hfits below rfl)).2]
      have hy : FontFreeYield (yields o { table := true } rows) :=
        fontFreeYield_of_each fun n hn => fontFreeYield_yieldOf hcheck n (hplain n hn) _ rfl
      exact (fontFree_between (by decide) (fontFree_drawRows hy.rows) (by decide)).closed

/-- The rows of a table with code in a table in its only cell. -/
def codeRows : List Node :=
  [.container .tableRow [.container .tableCell [.branch (.table .null) [.container .tableRow [
    .container .tableCell [.leaf (.literal .inlineCode (.str "x")) none]]] none]]]

/-- The text of that cell. -/
def codeCell : String := "[code]+---+\n| x |\n+---+\n[/code]\n"

/-- The text of that table. -/
def codeText : String := tableText [[codeCell]]

theorem table_isolated_code :
    ({} : PageOptions).headingSize = ({ font := .str "Arial" } : PageOptions).headingSize ∧
    TextualEach codeRows ∧ ({} : PageOptions).check = .ok () ∧ (∀ n ∈ codeRows, n.All Unmarked) ∧
    visit {} (.branch (.table .null) codeRows none) {} = (.ok (plain codeText), {}) ∧
    visit { font := .str "Arial" } (.branch (.table .null) codeRows none)
      { state := { row := some ["z"] } } = (.ok (plain codeText), { state := { row := some ["z"] } }) ∧
    ¬ "[font".toList <:+: codeText.toList := by
  obtain ⟨r, records, hvisit, htext, hfree⟩ := table_isolated {} .null codeRows none
  have hsize : ({} : PageOptions).headingSize = ({ font := .str "Arial" } : PageOptions).headingSize :=
    rfl
  have ht : TextualEach codeRows := by decide
  have hc : ({} : PageOptions).check = .ok () := by cbv
  have hp : ∀ n ∈ codeRows, n.All Unmarked := by decide
  have hwalk : renderChildren {} codeRows ⟨{ table := some [] }, []⟩ =
      (.ok "", ⟨{ table := some [[codeCell]] }, []⟩) := by cbv
  have hv : visit {} (.branch (.table .null) codeRows none) {} = (.ok (plain codeText), {}) :=
    visit_table (o := {}) (p := {}) (y := ⟨"", [], [], [[codeCell]], [], []⟩) hwalk
  obtain ⟨text, rfl⟩ := htext ht
  have hsame := (hvisit {} rfl {} []).symm.trans hv
  have he : text = codeText :=
    Value.str.inj (congrArg Rendered.text (Except.ok.inj (Prod.ext_iff.1 hsame).1))
  have hr : records = [] := congrArg (·.log) (Prod.ext_iff.1 hsame).2
  subst he hr
  exact ⟨hsize, ht, hc, hp, hv, hvisit _ hsize { row := some ["z"] } [], hfree hc hp _ rfl⟩

end Bulletin.Proofs.Page.Isolation
