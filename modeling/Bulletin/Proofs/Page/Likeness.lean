import Bulletin.Proofs.Page.Fitting
import Mathlib.Data.List.Forall2

/-! # Trees that give the same page

Two rows of siblings may differ and still give the same page. It is enough that their walks add the
same to the page, up to the footnotes that they capture and to some of the records, and that the
footnotes are the same in pairs up to such a difference below them (`Alike`). A relation between
siblings that has this property for all that it relates passes it on from the body to the footnotes
and from footnotes to the footnotes in them (`Blurred`).

* `alike_branch`: below a branch a difference stays within what the branch adds.
* `forall₂_breadthFirst`: queues that are related in pairs are worked off in pairs.
* `Blurred.walks`, `Blurred.pages`: walks and pages over related siblings. -/

namespace Bulletin.Proofs.Page.Likeness

open Bulletin.Page
open Bulletin.Mdast (Node Leaf Branch)
open Bulletin.Proofs.Page.Walk Bulletin.Proofs.Page.Queue Bulletin.Proofs.Page.Whole
open Bulletin.Proofs.Page.Fitting (renderChildren_isOk_iff render_of_not_allText)
open List (Forall₂)

variable {o : PageOptions} {keep : Record → Bool} {S : Footnote → Footnote → Prop}

/-! ### Yields -/

/-- **Yields that are alike**: the second is the first, with some of its records, and with footnotes
that are related to those of the first. -/
structure Alike (keep : Record → Bool) (S : Footnote → Footnote → Prop) (y z : Yield) : Prop where
  text : y.text = z.text
  definitions : y.definitions = z.definitions
  footnotes : Forall₂ S y.footnotes z.footnotes
  rows : y.rows = z.rows
  cells : y.cells = z.cells
  log : y.log.filter keep = z.log

theorem alike_nothing : Alike keep S {} {} := ⟨rfl, rfl, .nil, rfl, rfl, rfl⟩

theorem Alike.append {y z y' z' : Yield} (h : Alike keep S y z) (h' : Alike keep S y' z') :
    Alike keep S (y ++ y') (z ++ z') where
  text := by rw [append_text, append_text, h.text, h'.text]
  definitions := by rw [append_definitions, append_definitions, h.definitions, h'.definitions]
  footnotes := List.rel_append h.footnotes h'.footnotes
  rows := by rw [append_rows, append_rows, h.rows, h'.rows]
  cells := by rw [append_cells, append_cells, h.cells, h'.cells]
  log := by rw [append_log, append_log, List.filter_append, h.log, h'.log]

theorem alike_self (hS : ∀ f, S f f) {y : Yield} (hlog : y.log.filter keep = y.log) :
    Alike keep S y y :=
  ⟨rfl, rfl, List.forall₂_same.2 fun f _ => hS f, rfl, rfl, hlog⟩

theorem Alike.eq {y z : Yield} (h : Alike (fun _ => true) Eq y z) : y = z := by
  obtain ⟨t, ds, fs, rs, cs, log⟩ := y
  obtain ⟨t', ds', fs', rs', cs', log'⟩ := z
  obtain ⟨ht, hd, hf, hr, hc, hl⟩ := h
  have hfs : fs = fs' := List.forall₂_eq_eq_eq.le _ _ hf
  have hlog : log = log' := by simpa using hl
  cases ht
  cases hd
  cases hr
  cases hc
  rw [hfs, hlog]

section Branches
variable {b : Branch} {ms ns : List Node} {at_ : Place} {p q : Option Mdast.Location}

/-- **Below a branch** a difference changes no more than it does among the children, or the footnote
that the branch is. -/
theorem alike_branch (h : ∀ at_, Alike keep S (yields o at_ ms) (yields o at_ ns))
    (hnote : ∀ identifier label, b = .footnoteDefinition identifier label →
      S ⟨identifier, label, ms⟩ ⟨identifier, label, ns⟩) :
    Alike keep S (yieldOf o at_ (.branch b ms p)) (yieldOf o at_ (.branch b ns q)) := by
  by_cases hf : flows b = true
  · rw [yieldOf_of_flows hf, yieldOf_of_flows hf]
    have h := h at_
    exact { h with text := by rw [h.text] }
  · rw [yieldOf.eq_def, yieldOf.eq_def o at_ (.branch b ns q)]
    have hnothing : Alike keep S {} {} := alike_nothing
    cases b with
    | table align =>
      have h := h { table := true }
      exact { hnothing with
        text := by simp only [h.rows]
        log := h.log }
    | footnoteDefinition identifier label =>
      exact { hnothing with
        footnotes := .cons (hnote identifier label rfl) .nil }
    | container k =>
      cases k with
      | tableRow =>
        have h := h { row := true }
        dsimp only
        split_ifs
        · exact { hnothing with
            rows := by simp only [h.cells]
            log := h.log }
        · exact alike_nothing
      | tableCell =>
        have h := h at_
        dsimp only
        split_ifs
        · exact { h with
            text := rfl
            cells := by simp only [h.cells, h.text] }
        · exact alike_nothing
      | _ => exact absurd rfl hf
    | _ => exact absurd rfl hf

/-- What a branch shows as it is is decided by what its children show. -/
theorem shown_branch (h : ∀ at_, shownEach at_ ms = shownEach at_ ns) :
    shown at_ (.branch b ms p) = shown at_ (.branch b ns q) := by
  by_cases hf : flows b = true
  · rw [shown_of_flows hf, shown_of_flows hf, h]
  · rw [shown.eq_def, shown.eq_def at_ (.branch b ns q)]
    cases b with
    | container k => cases k <;> first | exact absurd rfl hf | simp only [h]
    | table align => exact h _
    | footnoteDefinition identifier label => rfl
    | _ => exact absurd rfl hf

end Branches

/-! ### Queues -/

/-- **Queues that are related in pairs are worked off in pairs**, if related footnotes append
footnotes that are related in pairs. -/
theorem forall₂_breadthFirst (hS : ∀ f g, S f g →
    Forall₂ S (footnotesMet f.children) (footnotesMet g.children)) :
    ∀ q r, Forall₂ S q r → Forall₂ S (breadthFirst q) (breadthFirst r) := by
  intro q
  fun_induction breadthFirst q with
  | case1 =>
    rintro _ ⟨⟩
    rw [breadthFirst]
    exact .nil
  | case2 f q ih =>
    rintro _ (_ | ⟨hf, hq⟩)
    rw [breadthFirst]
    exact .cons hf (ih _ (List.rel_append hq (hS _ _ hf)))

theorem flatMap_eq_of_forall₂ {α β γ : Type} {R : α → β → Prop} {f : α → List γ} {g : β → List γ}
    {l : List α} {m : List β} (hlm : Forall₂ R l m) (h : ∀ a ∈ l, ∀ b, R a b → f a = g b) :
    l.flatMap f = m.flatMap g := by
  induction hlm with
  | nil => rfl
  | cons hab _ ih =>
    rw [List.forall_mem_cons] at h
    rw [List.flatMap_cons, List.flatMap_cons, h.1 _ hab, ih h.2]

/-! ### Pages -/

/-- Two footnotes with related siblings below them, and the same otherwise. -/
structure Paired (R : List Node → List Node → Prop) (f g : Footnote) : Prop where
  identifier : f.identifier = g.identifier
  label : f.label = g.label
  children : R f.children g.children

/-- **A difference that a page does not show**: related siblings show the same values as they are, and
what they yield is alike, with footnotes whose children are related again. -/
structure Blurred (o : PageOptions) (keep : Record → Bool) (R : List Node → List Node → Prop) :
    Prop where
  shown {ms ns : List Node} : R ms ns → ∀ at_, shownEach at_ ms = shownEach at_ ns
  alike {ms ns : List Node} : R ms ns → ∀ at_,
    Alike keep (Paired R) (yields o at_ ms) (yields o at_ ns)

namespace Blurred

variable {R : List Node → List Node → Prop} {ms ns : List Node} (hR : Blurred o keep R) (h : R ms ns)
include hR h

theorem fitsEach_iff (at_ : Place) : FitsEach at_ ms ↔ FitsEach at_ ns := by
  unfold FitsEach
  rw [hR.shown h at_]

/-- **Walks over related siblings** give the same text and add what is alike, or both fail. -/
theorem walks (p : Pass) :
    (∃ text y z, renderChildren o ms p = (.ok text, add p y) ∧
      renderChildren o ns p = (.ok text, add p z) ∧ Alike keep (Paired R) y z) ∨
    ∃ e e' q q', renderChildren o ms p = (.error e, q) ∧ renderChildren o ns p = (.error e', q') := by
  by_cases hfit : FitsEach (place p.state) ms
  · have hn := renderChildren_of_fits (o := o) ((hR.fitsEach_iff h _).1 hfit)
    have ha := hR.alike h (place p.state)
    rw [← ha.text] at hn
    exact .inl ⟨_, _, _, renderChildren_of_fits hfit, hn, ha⟩
  · refine .inr ?_
    rcases hm : renderChildren o ms p with ⟨e | text, q⟩
    · rcases hn : renderChildren o ns p with ⟨e' | text, q'⟩
      · exact ⟨e, e', q, q', rfl, rfl⟩
      · exact absurd ((hR.fitsEach_iff h _).2 (renderChildren_isOk_iff.1 ⟨text, q', hn⟩)) hfit
    · exact absurd (renderChildren_isOk_iff.1 ⟨text, q, hm⟩) hfit

theorem forall₂_footnotesMet : Forall₂ (Paired R) (footnotesMet ms) (footnotesMet ns) := by
  have ha := (hR.alike h {}).footnotes
  rwa [(yields_captured ms).1, (yields_captured ns).1] at ha

theorem definitionsMet_eq : definitionsMet ms = definitionsMet ns := by
  have ha := (hR.alike h {}).definitions
  rwa [(yields_captured ms).2, (yields_captured ns).2] at ha

theorem forall₂_notes : Forall₂ (Paired R) (notes ms) (notes ns) :=
  forall₂_breadthFirst (fun _ _ hfg => hR.forall₂_footnotesMet hfg.children) _ _
    (hR.forall₂_footnotesMet h)

theorem definitions_eq : definitions ms = definitions ns := by
  rw [definitions, definitions, hR.definitionsMet_eq h]
  congr 1
  exact flatMap_eq_of_forall₂ (hR.forall₂_notes h) fun _ _ _ hfg => hR.definitionsMet_eq hfg.children

theorem allText_iff : AllText ms ↔ AllText ns := by
  have hnotes : ∀ {fs gs : List Footnote}, Forall₂ (Paired R) fs gs →
      ((∀ f ∈ fs, FitsEach {} f.children) ↔ ∀ g ∈ gs, FitsEach {} g.children) := by
    intro fs gs hfs
    induction hfs with
    | nil => simp
    | cons hfg _ ih =>
      rw [List.forall_mem_cons, List.forall_mem_cons, ih, hR.fitsEach_iff hfg.children]
  rw [Whole.allText_iff, Whole.allText_iff, hR.fitsEach_iff h, hnotes (hR.forall₂_notes h)]

theorem pageText_eq (hfit : FitsEach {} ms) : pageText o ms = pageText o ns := by
  rw [Queue.pageText_eq hfit, Queue.pageText_eq ((hR.fitsEach_iff h _).1 hfit), (hR.alike h {}).text]

theorem pageLog_eq (hfit : FitsEach {} ms) :
    (pageLog o ms).filter keep = pageLog o ns := by
  rw [Queue.pageLog_eq hfit, Queue.pageLog_eq ((hR.fitsEach_iff h _).1 hfit), (hR.alike h {}).log]

theorem rawPage_eq (hm : AllText ms) :
    rawPage o ms = rawPage o ns ∧ (records o ms).filter keep = records o ns := by
  obtain ⟨hbody, hnotes⟩ := Whole.allText_iff.1 hm
  have hpairs := hR.forall₂_notes h
  constructor
  · have hlines : (notes ms).map (noteLine o) = (notes ns).map (noteLine o) := by
      rw [List.map_eq_flatMap, List.map_eq_flatMap]
      refine flatMap_eq_of_forall₂ hpairs fun f hf g hfg => ?_
      rw [noteLine, noteLine, hfg.identifier, hR.pageText_eq hfg.children (hnotes f hf)]
    rw [rawPage, rawPage, hR.pageText_eq h hbody, hR.definitions_eq h, hlines]
  · rw [records, records, List.filter_append, hR.pageLog_eq h hbody, List.filter_flatMap]
    congr 1
    exact flatMap_eq_of_forall₂ hpairs fun f hf g hfg => hR.pageLog_eq hfg.children (hnotes f hf)

/-- **Pages of related siblings** are the same, or none can be made of either. -/
theorem pages (loc loc' : Option Mdast.Location) (log : List Record) :
    (∃ page, render o (.branch (.container .root) ms loc) log = (.ok page, log ++ records o ms) ∧
      render o (.branch (.container .root) ns loc') log =
        (.ok page, log ++ (records o ms).filter keep)) ∨
    ∃ e e' q q', render o (.branch (.container .root) ms loc) log = (.error e, q) ∧
      render o (.branch (.container .root) ns loc') log = (.error e', q') := by
  by_cases hm : AllText ms
  · obtain ⟨hpage, hrecords⟩ := hR.rawPage_eq h hm
    refine .inl ⟨tidy (rawPage o ms), render_of_allText hm loc log, ?_⟩
    rw [hpage, hrecords]
    exact render_of_allText ((hR.allText_iff h).1 hm) loc' log
  · obtain ⟨i, t, q, hms⟩ := render_of_not_allText (o := o) hm loc log
    obtain ⟨i', t', q', hns⟩ :=
      render_of_not_allText (o := o) (fun hn => hm ((hR.allText_iff h).2 hn)) loc' log
    exact .inr ⟨_, _, q, q', hms, hns⟩

end Blurred

end Bulletin.Proofs.Page.Likeness
