import Bulletin.Proofs.Page.Likeness
import Bulletin.Proofs.Page.Mirror

/-! # Constructs that are dropped

An MDX construct has no markup of its own. Its visit gives an empty text and a warning that names its
category. So a page is the same without these constructs, wherever they stand (`blurred_supported`).

The warnings come in the order of the walks: those of the body, then those of each footnote. Where
rows and cells have their place and no footnote is lost in a table, every node is walked once.

* `log_yieldOf`: a walk warns of the constructs that do not stand in a footnote, in document order.
* `perm_unnoted`: the body and the footnotes of a page hold every node, each once.
* `foreign_dropped`: the facts on dropped constructs together. -/

namespace Bulletin.Proofs.Page.Foreign

open Bulletin.Page
open Bulletin.Mdast (Node Leaf Branch)
open Bulletin.Mdast.Node (subtreesEach subtreesEach_eq_flatMap)
open Bulletin.Proofs.Page.Walk Bulletin.Proofs.Page.Queue Bulletin.Proofs.Page.Whole
open Bulletin.Proofs.Page.Likeness
open Bulletin.Proofs.Page.Fitting (render_root)
open Bulletin.Proofs.Page.Preformatted (isRow isCell mem_outsideEach_of_mem_metEach)
open Bulletin.Proofs.Page.Mirror (Placed isTable)
open Bulletin.Proofs.Page.Deferred (mem_outsideEach all_of_mem_outside)
open scoped List

variable {o : PageOptions} {at_ : Place} {ns : List Node}

/-! ### Trees without these constructs -/

/-- The construct that a node stands for, if it is one that is dropped. -/
def foreign? : Node → Option Mdast.Foreign
  | .leaf (.foreign k _ _) _ => some k
  | _ => none

mutual

/-- A tree without the constructs that are dropped below it. -/
def supported : Node → Node
  | .leaf l p => .leaf l p
  | .branch b ns p => .branch b (supportedEach ns) p

/-- **Siblings without the constructs that are dropped**, at every depth. -/
def supportedEach : List Node → List Node
  | [] => []
  | n :: ns => if (foreign? n).isSome then supportedEach ns else supported n :: supportedEach ns

end

theorem supportedEach_cons (n : Node) (ns : List Node) :
    supportedEach (n :: ns) = supportedEach [n] ++ supportedEach ns := by
  rw [supportedEach, supportedEach, supportedEach]
  split_ifs <;> rfl

theorem yields_singleton (n : Node) : yields o at_ [n] = yieldOf o at_ n := by
  rw [yields, yields]
  show Yield.append _ {} = _
  simp [Yield.append]

/-- Siblings, and what is left of them. -/
def Reduced (ms ns : List Node) : Prop := ns = supportedEach ms

theorem alike_of_each : ∀ {ns : List Node},
    (∀ n ∈ ns, ∀ at_, Alike (fun _ => false) (Paired Reduced) (yieldOf o at_ n)
      (yields o at_ (supportedEach [n]))) →
    ∀ at_, Alike (fun _ => false) (Paired Reduced) (yields o at_ ns) (yields o at_ (supportedEach ns))
  | [], _, _ => by
    rw [supportedEach, yields]
    exact alike_nothing
  | n :: ns, h, at_ => by
    rw [List.forall_mem_cons] at h
    rw [supportedEach_cons, yields_append, yields]
    exact (h.1 at_).append (alike_of_each h.2 at_)

theorem supportedEach_branch (b : Branch) (ns : List Node) (p : Option Mdast.Location) :
    supportedEach [.branch b ns p] = [.branch b (supportedEach ns) p] := by
  rw [supportedEach, supported, supportedEach]
  rfl

theorem alike_supported (n : Node) : ∀ at_, Alike (fun _ => false) (Paired Reduced)
    (yieldOf o at_ n) (yields o at_ (supportedEach [n])) := by
  induction n using Node.induct with
  | leaf l p =>
    intro at_
    cases l with
    | foreign k v name =>
      rw [yieldOf, supportedEach, supportedEach]
      exact ⟨rfl, rfl, .nil, rfl, rfl, rfl⟩
    | _ =>
      rw [supportedEach, supported, supportedEach]
      show Alike _ _ _ (yields o at_ [_])
      rw [yields_singleton, yieldOf]
      exact ⟨rfl, rfl, .nil, rfl, rfl, rfl⟩
  | branch b ns p ih =>
    intro at_
    rw [supportedEach_branch, yields_singleton]
    exact alike_branch (alike_of_each ih) fun _ _ _ => ⟨rfl, rfl, rfl⟩

theorem shown_of_each : ∀ {ns : List Node},
    (∀ n ∈ ns, ∀ at_, shown at_ n = shownEach at_ (supportedEach [n])) →
    ∀ at_, shownEach at_ ns = shownEach at_ (supportedEach ns)
  | [], _, _ => by rw [supportedEach]
  | n :: ns, h, at_ => by
    rw [List.forall_mem_cons] at h
    rw [supportedEach_cons, shownEach_append, shownEach, h.1, shown_of_each h.2]

theorem shown_supported (n : Node) : ∀ at_, shown at_ n = shownEach at_ (supportedEach [n]) := by
  induction n using Node.induct with
  | leaf l p =>
    intro at_
    cases l <;> simp [supportedEach, supported, foreign?, shownEach, shown]
  | branch b ns p ih =>
    intro at_
    rw [supportedEach_branch, shownEach, shownEach, List.append_nil]
    exact shown_branch (shown_of_each ih)

/-- **Pages do not show constructs that are dropped.** -/
theorem blurred_supported : Blurred o (fun _ => false) Reduced where
  shown := by
    rintro ms _ rfl
    exact shown_of_each fun n _ => shown_supported n
  alike := by
    rintro ms _ rfl
    exact alike_of_each fun n _ => alike_supported n

/-! ### The warnings of a walk -/

/-- The warnings about the constructs among some nodes, one for each. -/
def warnings (ms : List Node) : List Record := (ms.filterMap foreign?).map dropped

theorem warnings_flatMap {α : Type} (l : List α) (f : α → List Node) :
    warnings (l.flatMap f) = l.flatMap fun a => warnings (f a) := by
  simp only [warnings, List.filterMap_flatMap, List.map_flatMap]

theorem warnings_append (ms ns : List Node) : warnings (ms ++ ns) = warnings ms ++ warnings ns := by
  rw [warnings, List.filterMap_append, List.map_append, warnings, warnings]

/-- Whether a node is no footnote. -/
def noFootnote (n : Node) : Bool := (footnote? n).isNone

theorem noFootnote_of_flows {b : Branch} {p : Option Mdast.Location} (h : flows b = true) :
    noFootnote (.branch b ns p) = true := by
  rw [noFootnote, footnote?_of_flows h]
  rfl

mutual

/-- **The nodes of a tree that do not stand in a footnote**, in document order. -/
def unnoted : Node → List Node
  | .leaf l p => [.leaf l p]
  | .branch b ns p =>
    .branch b ns p :: if noFootnote (.branch b ns p) then unnotedEach ns else []

/-- The nodes of siblings that do not stand in a footnote, in document order. -/
def unnotedEach : List Node → List Node
  | [] => []
  | n :: ns => unnoted n ++ unnotedEach ns

end

/-- Whether a node may stand at a place: a row is walked in a table, and a cell in a row. -/
structure Seated (at_ : Place) (n : Node) : Prop where
  row : isRow n = true → at_.table = true
  cell : isCell n = true → at_.row = true

theorem seated_of_loose {n : Node} (hr : isRow n = false) (hc : isCell n = false) : Seated at_ n where
  row h := by rw [hr] at h; cases h
  cell h := by rw [hc] at h; cases h

theorem not_table_of_flows {b : Branch} (h : flows b = true) (ns : List Node)
    (p : Option Mdast.Location) :
    isTable (.branch b ns p) = false ∧ isRow (.branch b ns p) = false := by
  cases b with
  | container k => cases k <;> first | exact Bool.noConfusion h | exact ⟨rfl, rfl⟩
  | table align => exact Bool.noConfusion h
  | _ => exact ⟨rfl, rfl⟩

theorem seated_of_placed {b : Branch} {p : Option Mdast.Location} (hp : Placed (.branch b ns p))
    (ht : isTable (.branch b ns p) = true → at_.table = true)
    (hr : isRow (.branch b ns p) = true → at_.row = true) : ∀ n ∈ ns, Seated at_ n :=
  fun n hn => ⟨fun h => ht ((hp n hn).1 h), fun h => hr ((hp n hn).2 h)⟩

theorem log_of_each : ∀ {ns : List Node}, (∀ n ∈ ns, (yieldOf o at_ n).log = warnings (unnoted n)) →
    (yields o at_ ns).log = warnings (unnotedEach ns)
  | [], _ => by rw [yields]; rfl
  | n :: ns, h => by
    rw [List.forall_mem_cons] at h
    rw [yields, append_log, h.1, log_of_each h.2, unnotedEach, warnings_append]

theorem warnings_branch (b : Branch) (ns : List Node) (p : Option Mdast.Location) (ms : List Node) :
    warnings (.branch b ns p :: ms) = warnings ms := rfl

/-- **A walk warns of the constructs that do not stand in a footnote**, in document order, if rows and
cells have their place. -/
theorem log_yieldOf (n : Node) : n.All Placed → ∀ at_, Seated at_ n →
    (yieldOf o at_ n).log = warnings (unnoted n) := by
  induction n using Node.induct with
  | leaf l p =>
    intro _ at_ _
    rw [yieldOf, unnoted]
    cases l <;> rfl
  | branch b ns p ih =>
    intro hp at_ hs
    rw [Node.all_branch] at hp
    -- the children are walked at another place, where rows and cells among them are walked too
    have hns : ∀ at_ : Place, (isTable (.branch b ns p) = true → at_.table = true) →
        (isRow (.branch b ns p) = true → at_.row = true) →
        (yields o at_ ns).log = warnings (unnotedEach ns) := fun at_ ht hr =>
      log_of_each fun n hn => ih n hn (hp.2 n hn) at_ (seated_of_placed hp.1 ht hr n hn)
    rw [unnoted, warnings_branch]
    by_cases hf : flows b = true
    · rw [yieldOf_of_flows hf, if_pos (noFootnote_of_flows hf)]
      obtain ⟨ht, hr⟩ := not_table_of_flows hf ns p
      exact hns at_ (fun h => by rw [ht] at h; cases h) fun h => by rw [hr] at h; cases h
    · cases b with
      | table align =>
        rw [yieldOf]
        exact hns { table := true } (fun _ => rfl) fun h => by cases h
      | footnoteDefinition identifier label =>
        rw [yieldOf]
        rfl
      | container k =>
        cases k with
        | tableRow =>
          rw [yieldOf, if_pos (hs.row rfl)]
          exact hns { row := true } (fun h => by cases h) fun _ => rfl
        | tableCell =>
          rw [yieldOf, if_pos (hs.cell rfl)]
          exact hns at_ (fun h => by cases h) fun h => by cases h
        | _ => exact absurd rfl hf
      | _ => exact absurd rfl hf

/-! ### Every node once -/

/-- **A node in good order**: rows stand only in tables and cells only in rows, and there is no
footnote below a table. -/
structure Orderly (n : Node) : Prop where
  placed : Placed n
  noFootnotes : isTable n = true → ∀ m ∈ n.subtrees, noFootnote m = true

instance (n : Node) : Decidable (Orderly n) :=
  decidable_of_iff (Placed n ∧ (isTable n = true → ∀ m ∈ n.subtrees, noFootnote m = true))
    ⟨fun h => ⟨h.1, h.2⟩, fun h => ⟨h.placed, h.noFootnotes⟩⟩

/-- Siblings in good order, none of which is a row or a cell. -/
def OrderlyEach (ns : List Node) : Prop :=
  ∀ n ∈ ns, n.All Orderly ∧ isRow n = false ∧ isCell n = false

theorem orderlyEach_of_branch {b : Branch} {p : Option Mdast.Location}
    (h : (Node.branch b ns p).All Orderly) (ht : isTable (.branch b ns p) = false)
    (hr : isRow (.branch b ns p) = false) : OrderlyEach ns := by
  rw [Node.all_branch] at h
  exact fun n hn => ⟨h.2 n hn, h.1.placed.isRow_eq_false hn ht, h.1.placed.isCell_eq_false hn hr⟩

/-- **The children of captured footnotes are in good order.** -/
theorem orderlyEach_footnotesMet (h : OrderlyEach ns) :
    ∀ f ∈ footnotesMet ns, OrderlyEach f.children := by
  intro f hf
  obtain ⟨m, hm, hmf⟩ := List.mem_filterMap.1 hf
  obtain ⟨p, rfl⟩ := eq_of_footnote? hmf
  obtain ⟨n, hn, hmn⟩ := mem_outsideEach.1 (mem_outsideEach_of_mem_metEach hm)
  exact orderlyEach_of_branch (all_of_mem_outside n hmn (h n hn).1) rfl rfl

theorem unnotedEach_eq_flatMap : ∀ ns : List Node, unnotedEach ns = ns.flatMap unnoted
  | [] => rfl
  | n :: ns => by rw [unnotedEach, unnotedEach_eq_flatMap ns, List.flatMap_cons]

theorem unnoted_eq_subtrees (n : Node) :
    (n.All fun m => noFootnote m = true) → unnoted n = n.subtrees := by
  induction n using Node.induct with
  | leaf l p => exact fun _ => rfl
  | branch b ns p ih =>
    intro h
    rw [Node.all_branch] at h
    rw [unnoted, Node.subtrees, if_pos h.1, unnotedEach_eq_flatMap, subtreesEach_eq_flatMap,
      List.flatMap_congr fun n hn => ih n hn (h.2 n hn)]

/-- The nodes below a footnote. -/
def contents (f : Footnote) : List Node := subtreesEach f.children

theorem perm_of_each (h : ∀ n ∈ ns, n.subtrees ~
      unnoted n ++ ((met n).filterMap footnote?).flatMap contents) :
    subtreesEach ns ~ unnotedEach ns ++ (footnotesMet ns).flatMap contents := by
  rw [subtreesEach_eq_flatMap, unnotedEach_eq_flatMap]
  exact perm_siblings h

/-- **The nodes of a tree** do not stand in a footnote or stand in one that is met. -/
theorem perm_unnoted (n : Node) : n.All Orderly → isRow n = false → isCell n = false →
    n.subtrees ~ unnoted n ++ ((met n).filterMap footnote?).flatMap contents := by
  induction n using Node.induct with
  | leaf l p => exact fun _ _ _ => List.Perm.refl _
  | branch b ns p ih =>
    intro h hrow hcell
    by_cases hf : flows b = true
    · obtain ⟨ht, hr⟩ := not_table_of_flows hf ns p
      have hns := orderlyEach_of_branch h ht hr
      have hperm := perm_of_each fun n hn => ih n hn (hns n hn).1 (hns n hn).2.1 (hns n hn).2.2
      rw [met, if_pos hf, List.filterMap_cons_none (footnote?_of_flows hf), Node.subtrees, unnoted,
        if_pos (noFootnote_of_flows hf)]
      exact hperm.cons _
    · rw [met, if_neg hf]
      cases b with
      | table align =>
        -- nothing below is met, but there is no footnote either
        rw [unnoted_eq_subtrees _ ((Node.all_branch.1 h).1.noFootnotes rfl)]
        exact List.Perm.of_eq (List.append_nil _).symm
      | footnoteDefinition identifier label =>
        rw [Node.subtrees, unnoted]
        simp [footnote?, contents, noFootnote]
      | container k =>
        cases k with
        | tableRow => cases hrow
        | tableCell => cases hcell
        | _ => exact absurd rfl hf
      | _ => exact absurd rfl hf

/-- **The body and the footnotes of a page hold every node**, each once. -/
theorem perm_nodes (h : OrderlyEach ns) :
    unnotedEach ns ++ ((notes ns).flatMap fun f => unnotedEach f.children) ~ subtreesEach ns := by
  have hsiblings : ∀ {ns : List Node}, OrderlyEach ns →
      subtreesEach ns ~ unnotedEach ns ++ (footnotesMet ns).flatMap contents := fun hns =>
    perm_of_each fun n hn => perm_unnoted n (hns n hn).1 (hns n hn).2.1 (hns n hn).2.2
  have hqueue := perm_breadthFirst (C := fun f => OrderlyEach f.children)
    (fun f hf => orderlyEach_footnotesMet hf) (fun f hf => hsiblings hf) (footnotesMet ns)
    (orderlyEach_footnotesMet h)
  exact (hqueue.symm.append_left _).trans (hsiblings h).symm

/-! ### Pages -/

theorem pageLog_eq_warnings (h : OrderlyEach ns) (ht : TextualEach ns) :
    pageLog o ns = warnings (unnotedEach ns) := by
  rw [pageLog_eq ht.fits]
  refine log_of_each fun n hn => ?_
  obtain ⟨ho, hr, hc⟩ := h n hn
  have hp : n.All Placed := fun m hm => (ho m hm).placed
  exact log_yieldOf n hp {} (seated_of_loose hr hc)

/-- The warnings about a page: those of the body, and then those of each footnote. -/
theorem records_eq_warnings (h : OrderlyEach ns) (ht : TextualEach ns) :
    records o ns =
      warnings (unnotedEach ns) ++ (notes ns).flatMap fun f => warnings (unnotedEach f.children) := by
  have hnotes : ∀ f ∈ notes ns, pageLog o f.children = warnings (unnotedEach f.children) := fun f hf =>
    pageLog_eq_warnings
      (forall_breadthFirst (C := fun f => OrderlyEach f.children)
        (fun f hf => orderlyEach_footnotesMet hf) _ (orderlyEach_footnotesMet h) f hf)
      (textual_breadthFirst _ (textual_footnotesMet ht) f hf)
  rw [records, pageLog_eq_warnings h ht]
  congr 1
  exact List.flatMap_congr hnotes

/-- **Constructs that are dropped leave no trace in a page.** A tree and what is left of it without
these constructs have the same page, and the latter gives no warning. If rows and cells stand in their
place and no footnote below a table, then there is one warning for each construct, which names its
category: first those of the body in document order, and then those of the footnotes in the order in
which these are written. -/
theorem foreign_dropped (o : PageOptions) {ns : List Node} {loc : Option Mdast.Location}
    (h : (Node.branch (.container .root) ns loc).Textual) (log : List Record) :
    render o (.branch (.container .root) ns loc) log =
      (.ok (tidy (rawPage o ns)), log ++ records o ns) ∧
    render o (.branch (.container .root) (supportedEach ns) loc) log =
      (.ok (tidy (rawPage o ns)), log) ∧
    ((Node.branch (.container .root) ns loc).All Orderly →
      records o ns = warnings (unnotedEach ns) ++
        ((notes ns).flatMap fun f => warnings (unnotedEach f.children)) ∧
      records o ns ~ warnings (subtreesEach ns)) := by
  have ht := textualEach_of_root h
  have hpage := render_eq (o := o) ht loc log
  have hleft : render o (.branch (.container .root) (supportedEach ns) loc) log =
      (.ok (tidy (rawPage o ns)), log) := by
    rcases blurred_supported.pages (rfl : Reduced ns (supportedEach ns)) loc loc log with
      ⟨page, hm, hn⟩ | ⟨e, e', q, q', hm, -⟩
    · rw [hpage] at hm
      obtain rfl : tidy (rawPage o ns) = page := Except.ok.inj (Prod.ext_iff.1 hm).1
      rw [hn, List.filter_false, List.append_nil]
    · rw [hpage] at hm
      cases hm
  refine ⟨hpage, hleft, fun ho => ?_⟩
  have hns : OrderlyEach ns := orderlyEach_of_branch ho rfl rfl
  have hrecords := records_eq_warnings (o := o) hns ht
  refine ⟨hrecords, ?_⟩
  rw [hrecords, ← warnings_flatMap, ← warnings_append]
  exact ((perm_nodes hns).filterMap foreign?).map dropped

/-- A construct that is dropped. -/
def construct (k : Mdast.Foreign) : Node := .leaf (.foreign k (.str "v") .null) none

/-- Constructs in a footnote of a footnote, in a table and in a quote. -/
def mixed : List Node :=
  [note "m" [construct .textElement, note "n" [construct .other]],
    .of (.table .null) [.container .tableRow [.container .tableCell
      [.text "c", construct .textExpression]]],
    .container .blockquote [construct .esm]]

theorem foreign_dropped_mixed : (Node.container .root mixed).Textual ∧
    (Node.container .root mixed).All Orderly ∧
    supportedEach mixed =
      [note "m" [note "n" []],
        .of (.table .null) [.container .tableRow [.container .tableCell [.text "c"]]],
        .container .blockquote []] ∧
    ∃ page, page = "[code]+---+\n| c |\n+---+\n[/code]\n[quote][/quote]\n\n^m: \n\n^n:" ∧
      render {} (.container .root mixed) [] =
        (.ok page, [.textExpression, .esm, .textElement, .other].map dropped) ∧
      render {} (.container .root (supportedEach mixed)) [] = (.ok page, []) ∧
      records {} mixed ~ [.textElement, .other, .textExpression, .esm].map dropped := by
  have ht : (Node.container .root mixed).Textual := by decide
  have ho : (Node.container .root mixed).All Orderly := by decide
  have ha : assemble {} mixed {} =
      (.ok "[code]+---+\n| c |\n+---+\n[/code]\n[quote][/quote]\n\n^m: \n\n^n: ",
        { state := { footnotes :=
            [⟨.str "m", .null, [construct .textElement, note "n" [construct .other]]⟩,
              ⟨.str "n", .null, [construct .other]⟩] }
          log := [.textExpression, .esm, .textElement, .other].map dropped }) := by cbv
  obtain ⟨hpage, hleft, horder⟩ := foreign_dropped {} ht []
  have hr := hpage.symm.trans (render_root mixed none [])
  rw [ha] at hr
  obtain ⟨htext, hlog⟩ := Prod.ext_iff.1 hr
  refine ⟨ht, ho, rfl, tidy (rawPage {} mixed), ?_, hpage.trans (Prod.ext rfl hlog), hleft,
    (horder ho).2⟩
  rw [Except.ok.inj htext]
  cbv

end Bulletin.Proofs.Page.Foreign
