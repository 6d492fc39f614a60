import Bulletin.Proofs.Page.Steps
import Bulletin.Proofs.Page.Whole

/-! # Which pages are made

A walk fails where it comes to a value that it shows as it is and that is no text: the texts of
siblings are joined, and that value is among them. So the walks that succeed are those over siblings
that fit their place, and a page is made just if all that it shows as it is are texts.

* `renderChildren_isOk_iff`: the walks over siblings that succeed.
* `render_of_not_allText`: the roots of which no page is made. -/

namespace Bulletin.Proofs.Page.Fitting

open Bulletin.Page
open Bulletin.Mdast (Node Leaf Branch)
open Bulletin.Proofs.Page.Walk Bulletin.Proofs.Page.Queue Bulletin.Proofs.Page.Whole
open Runs (bind_eq_ok get_bind pure_eq_ok except_map_eq_ok)

variable {o : PageOptions} {p q : Pass}

/-! ### Parts of a walk that succeeds -/

theorem isolated_eq_ok {α : Type} {s : State} {w : Walk α} {r : α × State}
    (h : isolated s w p = (.ok r, q)) : ∃ q', w { p with state := s } = (.ok r.1, q') := by
  have hw : isolated s w p = ((w { p with state := s }).1.map fun a =>
      (a, (w { p with state := s }).2.state), { (w { p with state := s }).2 with state := p.state }) :=
    rfl
  rw [hw] at h
  obtain ⟨a, ha, rfl⟩ := except_map_eq_ok.1 (Prod.ext_iff.1 h).1
  exact ⟨_, Prod.ext ha rfl⟩

theorem text?_isSome_of_joinTexts : ∀ {vs : List Value} {i : ℕ} {s : String},
    joinTexts i vs = .ok s → ∀ v ∈ vs, v.text?.isSome
  | [], _, _, _ => by simp
  | v :: vs, i, s, h => by
    cases v with
    | str t =>
      rw [joinTexts] at h
      obtain ⟨r, hr, -⟩ := except_map_eq_ok.1 h
      exact List.forall_mem_cons.2 ⟨rfl, text?_isSome_of_joinTexts hr⟩
    | _ => cases h

/-! ### Nodes and siblings -/

/-- The place after the visit of a node. -/
def placeAfter (r : Rendered) (q : Pass) : Place := place (r.effect.elim q.state (·.apply q.state))

/-- A node whose visits keep the place and give a text only if it fits. -/
def Honest (o : PageOptions) (n : Node) : Prop :=
  ∀ (p q : Pass) (r : Rendered), visit o n p = (.ok r, q) →
    placeAfter r q = place p.state ∧ (r.text.text?.isSome → Fits (place p.state) n)

theorem placeAfter_of_fits {n : Node} {r : Rendered} (h : visit o n p = (.ok r, q))
    (hn : Fits (place p.state) n) : placeAfter r q = place p.state := by
  obtain ⟨e, q', hv, ha⟩ := visits (o := o) n p hn
  rw [hv] at h
  obtain ⟨rfl, rfl⟩ : _ ∧ q' = q := ⟨Except.ok.inj (Prod.ext_iff.1 h).1, (Prod.ext_iff.1 h).2⟩
  calc place (apply e q').state = place (add p (yieldOf o (place p.state) n)).state := by rw [ha]
    _ = place p.state := place_addState _ _

theorem honest_leaf (l : Leaf) (loc : Option Mdast.Location) : Honest o (.leaf l loc) := by
  intro p q r h
  by_cases hn : Fits (place p.state) (.leaf l loc)
  · exact ⟨placeAfter_of_fits h hn, fun _ => hn⟩
  · -- only a literal that is shown as it is can be unfit
    cases l with
    | literal k v =>
      rw [Fits, shown] at hn
      split_ifs at hn with hb
      · have hv : visit o (.leaf (.literal k v) loc) p = (.ok ⟨v, none⟩, p) := by
          cases k with
          | text => rw [visit]; rfl
          | html => rw [visit]; rfl
          | inlineCode =>
            obtain ⟨⟨ds, fs, t, r⟩, log⟩ := p
            rw [visit]
            cases t <;> cases r <;> first | rfl | exact Bool.noConfusion hb
          | inlineMath =>
            obtain ⟨⟨ds, fs, t, r⟩, log⟩ := p
            rw [visit]
            cases t <;> cases r <;> first | rfl | exact Bool.noConfusion hb
          | _ => cases hb
        rw [hv] at h
        cases h
        exact ⟨rfl, fun ht => absurd (by simpa using ht) hn⟩
      · simp at hn
    | _ => simp [Fits, shown] at hn

theorem fitsEach_of_visitEach : ∀ {ns : List Node}, (∀ n ∈ ns, Honest o n) →
    ∀ {p q : Pass} {vs : List Value}, visitEach o ns p = (.ok vs, q) →
      (∀ v ∈ vs, v.text?.isSome) → FitsEach (place p.state) ns
  | [], _, _, _, _, _, _ => by simp [FitsEach, shownEach]
  | n :: ns, hh, p, q, vs, h, hvs => by
    rw [visitEach] at h
    obtain ⟨r, p₁, hr, h⟩ := bind_eq_ok.1 h
    obtain ⟨⟨⟩, p₂, hm, h⟩ := bind_eq_ok.1 h
    obtain ⟨ws, p₃, hws, h⟩ := bind_eq_ok.1 h
    obtain ⟨rfl, rfl⟩ := pure_eq_ok.1 h
    obtain ⟨hplace, hfit⟩ := hh n List.mem_cons_self p p₁ r hr
    have hp₂ : place p₂.state = place p.state := by
      have hm' : p₂ = { p₁ with state := r.effect.elim p₁.state (·.apply p₁.state) } :=
        (Prod.ext_iff.1 hm).2.symm
      rw [hm']
      exact hplace
    rw [List.forall_mem_cons] at hvs
    rw [fitsEach_cons]
    refine ⟨hfit hvs.1, ?_⟩
    rw [← hp₂]
    exact fitsEach_of_visitEach (fun m hm => hh m (List.mem_cons_of_mem n hm)) hws hvs.2

theorem fitsEach_of_each {ns : List Node} (hh : ∀ n ∈ ns, Honest o n) {s : String}
    (h : renderChildren o ns p = (.ok s, q)) : FitsEach (place p.state) ns := by
  rw [renderChildren] at h
  obtain ⟨vs, p₁, hvs, h⟩ := bind_eq_ok.1 h
  have hj : joinTexts 0 vs = .ok s := (Prod.ext_iff.1 h).1
  exact fitsEach_of_visitEach hh hvs (text?_isSome_of_joinTexts hj)

/-- A branch whose visit succeeds fits, if the walks over its children succeed only where they
fit. -/
theorem fits_of_visit_branch {b : Branch} {ns : List Node} {loc : Option Mdast.Location}
    {r : Rendered} (hw : ∀ (p q : Pass) (s : String), renderChildren o ns p = (.ok s, q) →
      FitsEach (place p.state) ns) (h : visit o (.branch b ns loc) p = (.ok r, q)) :
    Fits (place p.state) (.branch b ns loc) := by
  by_cases hf : flows b = true
  · rw [visit_of_flows hf] at h
    obtain ⟨s, p₁, hs, -⟩ := bind_eq_ok.1 h
    rw [Fits, shown_of_flows hf]
    exact hw p p₁ s hs
  · cases b with
    | table align =>
      rw [visit] at h
      obtain ⟨⟨s, st⟩, p₁, hs, -⟩ := bind_eq_ok.1 h
      obtain ⟨p₂, hs⟩ := isolated_eq_ok hs
      rw [Fits, shown]
      exact hw _ p₂ s hs
    | footnoteDefinition identifier label => simp [Fits, shown]
    | container k =>
      cases k with
      | tableRow =>
        rw [Fits, shown]
        split_ifs with ht
        · have hn : ¬ p.state.table.isNone := by
            rw [Option.isNone_iff_eq_none]
            exact Option.isSome_iff_ne_none.1 ht
          rw [visit, get_bind, if_neg hn] at h
          obtain ⟨⟨s, st⟩, p₁, hs, -⟩ := bind_eq_ok.1 h
          obtain ⟨p₂, hs⟩ := isolated_eq_ok hs
          exact hw _ p₂ s hs
        · simp
      | tableCell =>
        rw [Fits, shown]
        split_ifs with hr
        · have hn : ¬ p.state.row.isNone := by
            rw [Option.isNone_iff_eq_none]
            exact Option.isSome_iff_ne_none.1 hr
          rw [visit, get_bind, if_neg hn] at h
          obtain ⟨s, p₁, hs, -⟩ := bind_eq_ok.1 h
          exact hw p p₁ s hs
        · simp
      | _ => exact absurd rfl hf
    | _ => exact absurd rfl hf

theorem honest (n : Node) : Honest o n := by
  induction n using Node.induct with
  | leaf l loc => exact honest_leaf l loc
  | branch b ns loc ih =>
    intro p q r h
    have hn : Fits (place p.state) (.branch b ns loc) :=
      fits_of_visit_branch (fun _ _ _ => fitsEach_of_each ih) h
    exact ⟨placeAfter_of_fits h hn, fun _ => hn⟩

/-- **The walks over siblings that succeed** are those over siblings that fit their place. -/
theorem renderChildren_isOk_iff {ns : List Node} :
    (∃ s q, renderChildren o ns p = (.ok s, q)) ↔ FitsEach (place p.state) ns :=
  ⟨fun ⟨_, _, h⟩ => fitsEach_of_each (fun n _ => honest n) h, fun h => ⟨_, _, renderChildren_of_fits h⟩⟩

/-! ### Pages -/

theorem render_root (ns : List Node) (loc : Option Mdast.Location) (log : List Record) :
    render o (.branch (.container .root) ns loc) log =
      ((assemble o ns { log := log }).1.map tidy, (assemble o ns { log := log }).2.log) := by
  cases ns with
  | nil =>
    rw [assemble_eq fun n hn => by simp at hn]
    exact render_eq (fun n hn => by simp at hn) loc log
  | cons n ns => rfl

theorem fitsEach_of_footnoteLines : ∀ {fuel index : ℕ} {p q : Pass} {lines : List String},
    place p.state = {} → footnoteLines o index fuel p = (.ok lines, q) →
      ∀ f ∈ (breadthFirst (p.state.footnotes.drop index)).take fuel, FitsEach {} f.children
  | 0, _, _, _, _, _, _ => by simp
  | fuel + 1, index, p, q, lines, hp, h => by
    rw [footnoteLines, get_bind] at h
    rcases Nat.lt_or_ge index p.state.footnotes.length with hi | hi
    · set f := p.state.footnotes[index] with hf
      rw [List.getElem?_eq_getElem hi, ← hf] at h
      obtain ⟨s, p₁, hs, h⟩ := bind_eq_ok.1 h
      obtain ⟨rest, p₂, hrest, -⟩ := bind_eq_ok.1 h
      have hfit : FitsEach (place p.state) f.children := renderChildren_isOk_iff.1 ⟨s, p₁, hs⟩
      have hp₁ : p₁ = add p (yields o {} f.children) := by
        rw [renderChildren_of_fits hfit, hp] at hs
        exact (Prod.ext_iff.1 hs).2.symm
      have hnext : p₁.state.footnotes.drop (index + 1) =
          p.state.footnotes.drop (index + 1) ++ footnotesMet f.children := by
        rw [hp₁, ← (yields_captured (o := o) f.children).1]
        exact List.drop_append_of_le_length hi
      have ih := fitsEach_of_footnoteLines (by rw [hp₁, add, place_addState, hp]) hrest
      rw [hnext] at ih
      rw [List.drop_eq_getElem_cons hi, ← hf, breadthFirst, List.take_succ_cons,
        List.forall_mem_cons]
      exact ⟨hp ▸ hfit, ih⟩
    · rw [List.drop_eq_nil_of_le hi, breadthFirst]
      simp

theorem allText_of_assemble {ns : List Node} {log : List Record} {text : String}
    (h : assemble o ns { log := log } = (.ok text, q)) : AllText ns := by
  obtain ⟨body, p₁, hbody, h⟩ := bind_eq_ok.1 h
  obtain ⟨lines, p₂, hlines, -⟩ := bind_eq_ok.1 h
  have hfit : FitsEach {} ns := renderChildren_isOk_iff.1 ⟨body, p₁, hbody⟩
  have hp₁ : p₁ = add { log := log } (yields o {} ns) := by
    rw [renderChildren_of_fits (p := { log := log }) hfit] at hbody
    exact (Prod.ext_iff.1 hbody).2.symm
  have hnotes := fitsEach_of_footnoteLines (by rw [hp₁, add, place_addState]; rfl) hlines
  rw [hp₁, footnotes_body, ← notes, List.take_of_length_le (length_notes_le ns)] at hnotes
  exact allText_iff.2 ⟨hfit, hnotes⟩

/-- **Of a root that shows other values as they are no page is made**, because of one of them. -/
theorem render_of_not_allText {ns : List Node} (h : ¬ AllText ns) (loc : Option Mdast.Location)
    (log : List Record) : ∃ i t after,
      render o (.branch (.container .root) ns loc) log = (.error (.notText i t), after) := by
  rcases ha : assemble o ns { log := log } with ⟨e | text, q⟩
  · obtain ⟨i, t, rfl⟩ := onlyNotText.assemble ns _ _ e ha
    rw [render_root, ha]
    exact ⟨i, t, _, rfl⟩
  · exact absurd (allText_of_assemble ha) h

end Bulletin.Proofs.Page.Fitting
