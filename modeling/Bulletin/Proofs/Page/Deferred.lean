import Bulletin.Mdast.Read
import Bulletin.Proofs.Page.Whole
import Bulletin.Value.Json
import Mathlib

/-! # What is deferred to the end of a page

Link definitions and footnotes are taken out of the text and written at the end of the page. Tables
and rows are walked in states of their own, which end with them, and rows and cells outside of their
place are not walked at all: what is deferred below a table, a row or a cell is lost. All other link
definitions and footnotes are written, each once, however deep they stand (`deferred_once`).

* `outside`: the nodes that do not stand below a table, a row or a cell.
* `perm_outside`: the walks over a page and its footnotes meet these nodes, each once. -/

namespace Bulletin.Proofs.Page.Deferred

open Bulletin.Page
open Bulletin.Mdast (Node Leaf Branch)
open Bulletin.Mdast.Node (subtreesEach)
open Bulletin.Proofs.Page.Walk Bulletin.Proofs.Page.Queue Bulletin.Proofs.Page.Whole
open scoped List

/-! ### Nodes outside of tables -/

/-- The branches that end what is deferred: tables, rows and cells. -/
def tabular : Branch → Bool
  | .container .tableRow => true
  | .container .tableCell => true
  | .table _ => true
  | _ => false

mutual

/-- **The nodes of a tree that do not stand below a table, a row or a cell**, in document order. -/
def outside : Node → List Node
  | .leaf l p => [.leaf l p]
  | .branch b ns p => .branch b ns p :: if tabular b then [] else outsideEach ns

/-- The nodes of siblings that do not stand below a table, a row or a cell. -/
def outsideEach : List Node → List Node
  | [] => []
  | n :: ns => outside n ++ outsideEach ns

end

/-- Whether a node is no table, row or cell. -/
def loose : Node → Bool
  | .leaf .. => true
  | .branch b _ _ => !tabular b

theorem not_tabular_of_flows {b : Branch} (h : flows b = true) : ¬ tabular b = true := by
  cases b with
  | container k => cases k <;> first | exact Bool.noConfusion h | exact Bool.noConfusion
  | table _ => exact Bool.noConfusion h
  | _ => exact Bool.noConfusion

theorem outsideEach_of_each : ∀ {ns : List Node},
    (∀ n ∈ ns, n.All (fun m => loose m) → outside n = n.subtrees) →
      (∀ n ∈ ns, n.All fun m => loose m) → outsideEach ns = subtreesEach ns
  | [], _, _ => rfl
  | n :: ns, ih, h => by
    rw [List.forall_mem_cons] at ih h
    rw [outsideEach, subtreesEach, ih.1 h.1, outsideEach_of_each ih.2 h.2]

theorem outside_eq_subtrees (n : Node) : n.All (fun m => loose m) → outside n = n.subtrees := by
  induction n using Node.induct with
  | leaf l p => exact fun _ => rfl
  | branch b ns p ih =>
    intro h
    rw [Node.all_branch] at h
    have hb : ¬ tabular b = true := by simpa [loose] using h.1
    rw [outside, Node.subtrees, if_neg hb, outsideEach_of_each ih h.2]

theorem outsideEach_eq_flatMap : ∀ ns : List Node, outsideEach ns = ns.flatMap outside
  | [] => rfl
  | n :: ns => by rw [outsideEach, outsideEach_eq_flatMap ns, List.flatMap_cons]

theorem mem_outsideEach {m : Node} : ∀ {ns : List Node},
    m ∈ outsideEach ns ↔ ∃ n ∈ ns, m ∈ outside n
  | [] => by simp [outsideEach]
  | n :: ns => by simp [outsideEach, mem_outsideEach]

theorem all_of_mem_outside {P : Node → Prop} {m : Node} (n : Node) :
    m ∈ outside n → n.All P → m.All P := by
  induction n using Node.induct with
  | leaf l p =>
    intro hm h
    rwa [List.mem_singleton.1 hm]
  | branch b ns p ih =>
    intro hm h
    rw [outside, List.mem_cons] at hm
    rcases hm with rfl | hm
    · exact h
    · split_ifs at hm with hb
      · cases hm
      · obtain ⟨n, hn, hm⟩ := mem_outsideEach.1 hm
        exact ih n hn hm ((Node.all_branch.1 h).2 n hn)

theorem textual_of_mem_outsideEach {ns : List Node} {m : Node} (h : TextualEach ns)
    (hm : m ∈ outsideEach ns) : m.Textual := by
  obtain ⟨n, hn, hm⟩ := mem_outsideEach.1 hm
  exact all_of_mem_outside n hm (h n hn)

/-! ### What is met in the end -/

/-- The nodes in some footnotes that stand outside of tables. -/
def below (q : List Footnote) : List Node := q.flatMap fun f => outsideEach f.children

theorem perm_of_each {ns : List Node}
    (h : ∀ n ∈ ns, (outside n).Perm (met n ++ below ((met n).filterMap footnote?))) :
    (outsideEach ns).Perm (metEach ns ++ below (footnotesMet ns)) := by
  rw [outsideEach_eq_flatMap, metEach_eq_flatMap]
  exact perm_siblings h

theorem perm_outside_met (n : Node) :
    (outside n).Perm (met n ++ below ((met n).filterMap footnote?)) := by
  induction n using Node.induct with
  | leaf l p => rw [outside, met]; exact List.Perm.refl _
  | branch b ns p ih =>
    rw [outside, met]
    by_cases hf : flows b = true
    · rw [if_neg (not_tabular_of_flows hf), if_pos hf,
        List.filterMap_cons_none (footnote?_of_flows hf)]
      exact (perm_of_each ih).cons _
    · rw [if_neg hf]
      cases b with
      | footnoteDefinition identifier label =>
        simp [tabular, footnote?, below]
      | table align => exact List.Perm.refl _
      | container k => cases k <;> first | exact absurd rfl hf | exact List.Perm.refl _
      | _ => exact absurd rfl hf

theorem perm_outsideEach_met (ns : List Node) :
    (outsideEach ns).Perm (metEach ns ++ below (footnotesMet ns)) :=
  perm_of_each fun n _ => perm_outside_met n

/-- What stands outside of tables in the footnotes of a queue is met in those of its order. -/
theorem perm_below (q : List Footnote) :
    (below q).Perm ((breadthFirst q).flatMap fun f => metEach f.children) :=
  perm_breadthFirst (C := fun _ => True) (fun _ _ _ _ => trivial)
    (fun f _ => perm_outsideEach_met f.children) q fun _ _ => trivial

/-- **The walks over a page and its footnotes meet what stands outside of tables**, each node once. -/
theorem perm_outside (ns : List Node) : (metEach (walked ns)).Perm (outsideEach ns) := by
  rw [walked, metEach_append, metEach_flatMap]
  exact ((perm_below (footnotesMet ns)).symm.append_left _).trans (perm_outsideEach_met ns).symm

theorem perm_definitions (ns : List Node) :
    (definitions ns).Perm ((outsideEach ns).filterMap definition?) := by
  have h : definitionsMet (walked ns) = definitions ns := definitionsMet_append_flatMap ..
  rw [← h]
  exact (perm_outside ns).filterMap _

theorem perm_notes (ns : List Node) : (notes ns).Perm ((outsideEach ns).filterMap footnote?) := by
  rw [← footnotesMet_walked]
  exact (perm_outside ns).filterMap _

/-! ### The entries of a page -/

/-- **What is deferred is written once**: a page ends with the lines of all link definitions and then
those of all footnotes that do not stand below a table, a row or a cell, one line for each. These are
all link definitions and all footnotes of a tree that has no table, row or cell. -/
theorem deferred_once (o : PageOptions) {ns : List Node} {loc : Option Mdast.Location}
    (h : (Node.branch (.container .root) ns loc).Textual) (log : List Record) :
    (∃ (ds : List Mdast.Definition) (fs : List Footnote) (text : String) (after : Pass),
      ds ~ (outsideEach ns).filterMap definition? ∧
      fs ~ (outsideEach ns).filterMap footnote? ∧
      text = pageText o ns ++ "\n".intercalate (ds.map definitionEntry) ++
        "\n".intercalate (fs.map (noteLine o)) ∧
      assemble o ns { log := log } = (.ok text, after) ∧
      render o (.branch (.container .root) ns loc) log = (.ok (tidy text), after.log)) ∧
    ((∀ n ∈ ns, n.All fun m => loose m) → outsideEach ns = subtreesEach ns) := by
  have hns := textualEach_of_root h
  exact ⟨⟨definitions ns, notes ns, rawPage o ns, _, perm_definitions ns, perm_notes ns, rfl,
    assemble_eq hns log, render_eq hns loc log⟩, outsideEach_of_each fun n _ => outside_eq_subtrees n⟩

/-- A link definition of which only the name and the target matter. -/
def definition (name : String) : Node :=
  .leaf (.definition ⟨.str name, .str "u", .null, .null⟩) none

/-- Link definitions in a quoted list and in a footnote of a footnote. -/
def scattered : List Node :=
  [.container .blockquote [.of (.list (.bool true) .null) [.container .listItem [definition "a"]]],
    .container .emphasis [note "b" [.text "x", note "c" [definition "d"]]]]

theorem deferred_once_scattered : (Node.container .root scattered).Textual ∧
    (∀ n ∈ scattered, n.All fun m => loose m) ∧
    ∃ (ds : List Mdast.Definition) (fs : List Footnote) (after : List Record),
      (ds.map (·.identifier.display)) ~ ["a", "d"] ∧ (fs.map (·.identifier.display)) ~ ["b", "c"] ∧
      render {} (.container .root scattered) [] = (.ok (tidy (pageText {} scattered ++
        "\n".intercalate (ds.map definitionEntry) ++ "\n".intercalate (fs.map (noteLine {})))),
          after) := by
  have ht : (Node.container .root scattered).Textual := by decide
  have hl : ∀ n ∈ scattered, n.All fun m => loose m := by decide
  obtain ⟨⟨ds, fs, text, after, hds, hfs, rfl, -, hr⟩, hall⟩ := deferred_once {} ht []
  rw [hall hl] at hds hfs
  exact ⟨ht, hl, ds, fs, after.log, hds.map _, hfs.map _, hr⟩

/-- The text of a document with a link definition in the cell of a table. -/
def tableText : String :=
  "\x7b\"type\": \"root\", \"children\": [\x7b\"type\": \"table\", \"children\": [" ++
    "\x7b\"type\": \"tableRow\", \"children\": [\x7b\"type\": \"tableCell\", \"children\": [" ++
    "\x7b\"type\": \"definition\", \"identifier\": \"a\", \"url\": \"u\"\x7d]\x7d]\x7d]\x7d]\x7d"

/-- The nodes of that document below its root. -/
def tableNodes : List Node :=
  [.of (.table (.list [])) [.container .tableRow [.container .tableCell [definition "a"]]]]

/-- **A link definition in a table is lost**: the document is read, the definition is one of its
nodes, and its page has no caret, with which the line of the definition would start. -/
theorem definition_lost_in_table :
    (∃ v, Json.read tableText = .ok v ∧
      Mdast.readDocument true v [] = (.ok (.container .root tableNodes), [])) ∧
    (Node.container .root tableNodes).Textual ∧
    (subtreesEach tableNodes).filterMap definition? = [⟨.str "a", .str "u", .null, .null⟩] ∧
    ∃ text after, assemble {} tableNodes {} = (.ok text, after) ∧ '^' ∉ text.toList := by
  have ht : (Node.container .root tableNodes).Textual := by decide
  refine ⟨⟨_, by cbv, by cbv⟩, ht, by rfl, rawPage {} tableNodes, _,
    assemble_eq (textualEach_of_root ht) [], ?_⟩
  exact of_decide_eq_true (by cbv)

end Bulletin.Proofs.Page.Deferred
