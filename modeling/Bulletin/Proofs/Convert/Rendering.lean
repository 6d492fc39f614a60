import Bulletin.Proofs.Convert.Rejection
import Bulletin.Proofs.Convert.Parse
import Bulletin.Proofs.Page.Fitting

/-! # Which document trees become pages

A tree that is read from a JSON text becomes a page just if all that the page shows as it is are
texts: reading lets a value of any type through. Apart from that, and from a heading of infinite
depth, the conversion of a JSON text fails with the library's own failures only.

* `failure_of_convert_tree`: where the conversion of a JSON text fails.
* `accepted_tree_pages`: what becomes of a tree that is read. -/

namespace Bulletin.Proofs.Convert.Rendering

open Bulletin.Mdast (Node)
open Rejection Reread Runs
open Convert.Parse (forFormat_cases rendererOptions_error)
open Page.Whole (AllText)

variable {text : String} {reader renderer : Option Options} {tokenizer : Tokenizer} {f : Failure}
  {w w' : Workspace}

/-! ### Where a conversion fails -/

theorem ofLogged_eq {α : Type} {x : Logged Failure α} {r : Except Failure α}
    (h : Job.ofLogged x w = (r, w')) : ∃ log', x w.log = (r, log') :=
  ⟨(x w.log).2, Prod.ext (Prod.ext_iff.1 h).1 rfl⟩

/-- **Reading a tree fails** with a failure of the library, or at an infinite depth. -/
theorem failure_of_readTree {o : TreeOptions} {log log' : List Record}
    (h : readTree o text log = (.error f, log')) :
    f.kind.isLibrary = true ∨ f = .tree (.depth .infinite) := by
  rcases bind_eq_error.1 h with h | ⟨v, log₁, -, h⟩
  · -- the text is no JSON
    have hx := error_of_lift h
    cases hj : Json.read text with
    | error e =>
      rw [hj] at hx
      obtain rfl := Except.error.inj hx
      exact .inl rfl
    | ok v =>
      rw [hj] at hx
      cases hx
  rcases bind_eq_error.1 h with h | ⟨root, log₂, -, h⟩
  · obtain ⟨fault, -, rfl⟩ := error_of_mapError h
    by_cases hf : fault = .depth .infinite
    · exact .inr (by rw [hf]; rfl)
    · exact .inl ((refusedAt_treeFailure fault).2.2 hf)
  rcases bind_eq_error.1 h with h | ⟨u, log₃, -, h⟩
  · cases h
  · cases h

/-- **The parsing of a JSON text** is a reading of it, or fails because of the options. -/
theorem parse_tree (text : String) (reader : Option Options) (tokenizer : Tokenizer)
    (w : Workspace) :
    (∃ o log, parse (.text text) (.str "mdast") reader tokenizer w =
      ((readTree o text log).1, { w with log := (readTree o text log).2 })) ∨
    ∃ e w', parse (.text text) (.str "mdast") reader tokenizer w = (.error e, w') ∧
      e.kind.isLibrary = true := by
  have hformat : Job.ofLogged (Logged.lift (Input.format (.text text) (.str "mdast"))) w =
      (.ok Format.tree, w) := rfl
  set w₁ : Workspace := { w with
    log := w.log ++ [⟨.debug, .conversion, s!"Parsing input as {Format.tree.name}"⟩] } with hw₁
  have hreport : Job.report .debug .conversion s!"Parsing input as {Format.tree.name}" w =
      (.ok (), w₁) := rfl
  rcases forFormat_cases reader .tree with ⟨o | o, ho, hf⟩ | ⟨e, he, hlib⟩
  · cases hf
  · refine .inl ⟨o, w₁.log, ?_⟩
    have hoptions : Job.ofLogged (Logged.lift (ReaderOptions.forFormat reader .tree)) w₁ =
        (.ok (.tree o), w₁) := by rw [ho]; rfl
    exact (bind_ok hformat).trans ((bind_ok hreport).trans ((bind_ok hoptions).trans rfl))
  · refine .inr ⟨e, w₁, ?_, hlib⟩
    have hoptions : Job.ofLogged (Logged.lift (ReaderOptions.forFormat reader .tree)) w₁ =
        (.error e, w₁) := by rw [he]; rfl
    exact (bind_ok hformat).trans ((bind_ok hreport).trans (bind_error hoptions))

/-- **A conversion of a JSON text fails** with a failure of the library, at an infinite depth, or
where its tree is rendered. -/
theorem failure_of_convert_tree
    (h : convert (.text text) (.str "mdast") reader renderer tokenizer w = (.error f, w')) :
    f.kind.isLibrary = true ∨ f = .tree (.depth .infinite) ∨
      ∃ (o : TreeOptions) (p : PageOptions) (root : Node) (log log₁ log₂ : List Record)
        (fault : Page.Fault), readTree o text log = (.ok root, log₁) ∧
          Page.render p root log₁ = (.error fault, log₂) ∧ f = .page fault := by
  rcases parse_tree text reader tokenizer w with ⟨o, log, hparse⟩ | ⟨e, w₁, hparse, hlib⟩
  · rcases hr : readTree o text log with ⟨e | root, log₁⟩
    · rw [hr] at hparse
      rw [convert, bind_error hparse] at h
      cases h
      exact (failure_of_readTree hr).imp_right .inl
    · rw [hr] at hparse
      rw [convert, bind_ok hparse] at h
      rcases bind_eq_error.1 h with h | ⟨p, w₂, hp, h⟩
      · obtain ⟨log', ho⟩ := ofLogged_eq h
        exact .inl (rendererOptions_error (error_of_lift ho))
      · obtain rfl : { w with log := log₁ } = w₂ := (Prod.ext_iff.1 hp).2
        obtain ⟨log₂, hlog⟩ := ofLogged_eq h
        obtain ⟨fault, hfault, rfl⟩ := error_of_mapError hlog
        exact .inr (.inr ⟨o, p, root, log, log₁, log₂, fault, hr, hfault, rfl⟩)
  · rw [convert, bind_error hparse] at h
    cases h
    exact .inl hlib

/-! ### Trees that are read -/

theorem isRoot_of_readTree {o : TreeOptions} {root : Node} {log log' : List Record}
    (h : readTree o text log = (.ok root, log')) : root.IsRoot := by
  obtain ⟨v, log₁, -, hr, -⟩ := readTree_eq_ok.1 h
  exact (Mdast.fromValue_of_readDocument hr).2

/-- **A tree that is read becomes a page just if all that the page shows as it is are texts**, and
otherwise rendering fails at a value of another type, with a failure that is not one of the
library's. These failures and infinite depths are all that the conversion of a JSON text fails with
apart from the library's own. -/
theorem accepted_tree_pages (text : String) :
    (∀ (o : TreeOptions) (root : Node) (log log' : List Record),
      readTree o text log = (.ok root, log') → ∀ (p : PageOptions) (before : List Record),
        (AllText root.children ∧ ∃ page after, Page.render p root before = (.ok page, after)) ∨
        ¬ AllText root.children ∧
          ∃ i t after, Page.render p root before = (.error (.notText i t), after)) ∧
    ∀ (reader renderer : Option Options) (tokenizer : Tokenizer) (w w' : Workspace) (f : Failure),
      convert (.text text) (.str "mdast") reader renderer tokenizer w = (.error f, w') →
        f.kind.isLibrary = true ∨ f = .tree (.depth .infinite) ∨
          ∃ (o : TreeOptions) (root : Node) (log log' : List Record) (i : ℕ) (t : String),
            readTree o text log = (.ok root, log') ∧ ¬ AllText root.children ∧
              f = .page (.notText i t) := by
  have hread : ∀ (o : TreeOptions) (root : Node) (log log' : List Record),
      readTree o text log = (.ok root, log') → ∀ (p : PageOptions) (before : List Record),
        (AllText root.children ∧ ∃ page after, Page.render p root before = (.ok page, after)) ∨
        ¬ AllText root.children ∧
          ∃ i t after, Page.render p root before = (.error (.notText i t), after) := by
    intro o root log log' h p before
    obtain ⟨ns, loc, rfl⟩ := isRoot_of_readTree h
    by_cases hns : AllText ns
    · exact .inl ⟨hns, _, _, Page.Whole.render_of_allText hns loc before⟩
    · exact .inr ⟨hns, Page.Fitting.render_of_not_allText hns loc before⟩
  refine ⟨hread, fun reader renderer tokenizer w w' f h => ?_⟩
  rcases failure_of_convert_tree h with h | h | ⟨o, p, root, log, log₁, log₂, fault, hr, hp, rfl⟩
  · exact .inl h
  · exact .inr (.inl h)
  · rcases hread o root log log₁ hr p log₁ with ⟨-, page, after, hok⟩ | ⟨hns, i, t, after, herr⟩
    · rw [hok] at hp
      cases hp
    · rw [herr] at hp
      cases hp
      exact .inr (.inr ⟨o, root, log, log₁, i, t, hr, hns, rfl⟩)

/-- The text of a document with a piece of code in a line that is a number. -/
def numberCode : String :=
  "\x7b\"type\": \"root\", \"children\": [\x7b\"type\": \"inlineCode\", \"value\": 1\x7d]\x7d"

/-- The tree of that document. -/
def numberCodeRoot : Node := .container .root [.literal .inlineCode (.int 1)]

theorem accepted_tree_pages_numberCode :
    readTree {} numberCode [] = (.ok numberCodeRoot, [treeRecord numberCodeRoot]) ∧
    (∃ page after, Page.render {} numberCodeRoot [] = (.ok page, after)) ∧
    ∃ f w', convert (.text "\x7boops") (.str "mdast") none none ownTokenizer {} = (.error f, w') ∧
      f.kind.isLibrary = true := by
  have hv : Json.read numberCode = .ok (.dict [("type", .str "root"), ("children", .list [
      .dict [("type", .str "inlineCode"), ("value", .int 1)]])]) := by cbv
  have hr : readTree {} numberCode [] = (.ok numberCodeRoot, [treeRecord numberCodeRoot]) :=
    readTree_eq_ok.2 ⟨_, [], hv, by cbv, rfl⟩
  have ht : AllText numberCodeRoot.children := of_decide_eq_true (by cbv)
  have hj : Json.read "\x7boops" = .error ⟨.propertyName, 1, 2, 1⟩ := by cbv
  have hc : ∃ w', convert (.text "\x7boops") (.str "mdast") none none ownTokenizer {} =
      (.error (.json ⟨.propertyName, 1, 2, 1⟩), w') := ⟨_, by cbv⟩
  refine ⟨hr, ?_, ?_⟩
  · rcases (accepted_tree_pages numberCode).1 {} _ [] _ hr {} [] with ⟨-, h⟩ | ⟨hn, -⟩
    · exact h
    · exact absurd ht hn
  · obtain ⟨w', hc⟩ := hc
    refine ⟨_, w', hc, ?_⟩
    rcases (accepted_tree_pages _).2 none none ownTokenizer {} w' _ hc with h | h | ⟨_, _, _, _, _, _, _, _, h⟩
    · exact h
    · cases h
    · cases h

/-- The text of a document with a text that is a number. -/
def numberText : String :=
  "\x7b\"type\": \"root\", \"children\": [\x7b\"type\": \"text\", \"value\": 1\x7d]\x7d"

/-- The tree of that document. -/
def numberTextRoot : Node := .container .root [.literal .text (.int 1)]

/-- **A text that is a number is read and not rendered**, neither in strict nor in lenient reading,
and what the conversion fails with is not one of the library's own failures. -/
theorem convert_numberText :
    (∀ strict log, ∃ log', readTree ⟨.bool strict⟩ numberText log = (.ok numberTextRoot, log')) ∧
    Page.render {} numberTextRoot [] = (.error (.notText 0 "int"), []) ∧
    (∃ w', convert (.text numberText) (.str "mdast") none none ownTokenizer {} =
      (.error (.page (.notText 0 "int")), w')) ∧
    (Failure.page (.notText 0 "int")).kind = .type ∧
    (Failure.page (.notText 0 "int")).kind.isLibrary = false := by
  have hv : Json.read numberText = .ok (.dict [("type", .str "root"), ("children", .list [
      .dict [("type", .str "text"), ("value", .int 1)]])]) := by cbv
  have ha : Page.assemble {} numberTextRoot.children {} = (.error (.notText 0 "int"), {}) := by cbv
  have hr : Page.render {} numberTextRoot [] = (.error (.notText 0 "int"), []) := by
    refine (Page.Fitting.render_root _ none []).trans ?_
    exact congrArg (fun r => (r.1.map Page.tidy, r.2.log)) ha
  refine ⟨fun strict log => ⟨log ++ [treeRecord numberTextRoot],
    readTree_eq_ok.2 ⟨_, log, hv, ?_, rfl⟩⟩, hr, ⟨_, by cbv⟩, rfl, rfl⟩
  cases strict <;> cbv

end Bulletin.Proofs.Convert.Rendering
