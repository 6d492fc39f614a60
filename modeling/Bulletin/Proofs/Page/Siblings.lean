import Bulletin.Proofs.Page.Likeness
import Mathlib

/-! # Siblings in a walk

The walk over siblings goes from one to the next and puts their texts together, so a row of siblings
may be walked in two parts (`renderChildren_append_iff`). Where it starts matters little: at the same
place the same siblings give the same and add the same to any state (`isLocal`). And it makes no
difference whether some siblings in a row stand below a root of their own (`Regrouped`), except for
the footnotes that hold these siblings, which are captured with that root in them.

* `alike_of_regrouped`: regrouped siblings yield what is alike.
* `siblings_compose`: the three facts together. -/

namespace Bulletin.Proofs.Page.Siblings

open Bulletin.Page
open Bulletin.Mdast (Node Branch)
open Bulletin.Proofs.Page.Walk Bulletin.Proofs.Page.Queue Bulletin.Proofs.Page.Whole
open Bulletin.Proofs.Page.Likeness
open Bulletin.Proofs.Page.Fitting (renderChildren_isOk_iff render_root)
open Runs (bind_ok bind_error get_bind)
open List (Forall₂)

variable {o : PageOptions}

/-! ### Walks that depend on the place alone -/

/-- **A local walk**: what it gives and what it adds depends on the place alone where it starts. -/
def Local (α : Type) (w : Walk α) : Prop :=
  ∀ at_ : Place, ∃ (r : Except Fault α) (y : Yield), ∀ p, place p.state = at_ → w p = (r, add p y)

/-- What an effect adds. -/
def effectYield : Option Effect → Yield
  | none => {}
  | some (.define d) => { definitions := [d] }
  | some (.note f) => { footnotes := [f] }
  | some (.appendRow cells) => { rows := [cells] }
  | some (.appendCell text) => { cells := [text] }

theorem apply_eq_add (e : Option Effect) (p : Pass) : apply e p = add p (effectYield e) := by
  rcases e with _ | ⟨d⟩ | ⟨f⟩ | ⟨cells⟩ | ⟨text⟩ <;> simp [apply, add, addState, effectYield, Effect.apply]

theorem place_stateAt (at_ : Place) : place (stateAt at_) = at_ := by
  obtain ⟨t, r⟩ := at_
  cases t <;> cases r <;> rfl

theorem local_bind {α β : Type} {w : Walk α} {f : α → Walk β} (hw : Local α w)
    (hf : ∀ a, Local β (f a)) : Local β (w >>= f) := by
  intro at_
  obtain ⟨r, y, h⟩ := hw at_
  cases r with
  | error e => exact ⟨.error e, y, fun p hp => bind_error (h p hp)⟩
  | ok a =>
    obtain ⟨r', z, h'⟩ := hf a at_
    refine ⟨r', y ++ z, fun p hp => ?_⟩
    rw [bind_ok (h p hp), h' _ ((place_addState _ _).trans hp), add_add]

theorem local_look {α : Type} {f : Pass → Walk α}
    (hs : ∀ p q, place p.state = place q.state → f p = f q) (hf : ∀ p, Local α (f p)) :
    Local α (get >>= f) := by
  intro at_
  obtain ⟨r, y, h⟩ := hf { state := stateAt at_ } at_
  refine ⟨r, y, fun p hp => ?_⟩
  rw [get_bind, hs p { state := stateAt at_ } (hp.trans (place_stateAt at_).symm), h p hp]

theorem local_isolated {α : Type} {w : Walk α} (s : State) (hw : Local α w) :
    Local (α × State) (isolated s w) := by
  intro at_
  obtain ⟨r, y, h⟩ := hw (place s)
  refine ⟨r.map fun a => (a, addState s y), { log := y.log }, fun p _ => ?_⟩
  unfold isolated
  rw [h { p with state := s } rfl]
  simp [add, addState]

/-- **Every walk over nodes is local.** -/
theorem isLocal : Steps Local where
  pure a _ := ⟨.ok a, {}, fun p _ => by rw [add_nothing]; rfl⟩
  bind := local_bind
  look := local_look
  report r _ := ⟨.ok (), { log := [r] }, fun p _ => by simp [add, addState]; rfl⟩
  apply e _ := ⟨.ok (), effectYield e, fun p _ => by rw [← apply_eq_add]; rfl⟩
  isolated := local_isolated
  join vs _ := ⟨joinTexts 0 vs, {}, fun p _ => by rw [add_nothing]; rfl⟩

/-! ### Siblings in two parts -/

/-- **Siblings in two parts**: their walk succeeds just if the walk over the first part does and then
the walk over the second in the state that is left, and it puts the two texts together. -/
theorem renderChildren_append_iff {xs ys : List Node} {p q : Pass} {text : String} :
    renderChildren o (xs ++ ys) p = (.ok text, q) ↔
      ∃ t₁ p₁ t₂, renderChildren o xs p = (.ok t₁, p₁) ∧ renderChildren o ys p₁ = (.ok t₂, q) ∧
        text = t₁ ++ t₂ := by
  have hplace : place (add p (yields o (place p.state) xs)).state = place p.state :=
    place_addState _ _
  have hfits : FitsEach (place p.state) xs → FitsEach (place p.state) ys →
      renderChildren o xs p = (.ok (yields o (place p.state) xs).text,
        add p (yields o (place p.state) xs)) ∧
      renderChildren o ys (add p (yields o (place p.state) xs)) =
        (.ok (yields o (place p.state) ys).text, add p (yields o (place p.state) (xs ++ ys))) ∧
      renderChildren o (xs ++ ys) p =
        (.ok ((yields o (place p.state) xs).text ++ (yields o (place p.state) ys).text),
          add p (yields o (place p.state) (xs ++ ys))) := by
    intro hx hy
    have h₂ := renderChildren_of_fits (o := o) (hplace.symm ▸ hy)
    have h₃ := renderChildren_of_fits (o := o) (p := p) (fitsEach_append.2 ⟨hx, hy⟩)
    rw [hplace, add_add, ← yields_append] at h₂
    rw [yields_append, append_text, ← yields_append] at h₃
    exact ⟨renderChildren_of_fits hx, h₂, h₃⟩
  constructor
  · intro h
    obtain ⟨hx, hy⟩ := fitsEach_append.1 (renderChildren_isOk_iff.1 ⟨text, q, h⟩)
    obtain ⟨h₁, h₂, h₃⟩ := hfits hx hy
    rw [h₃] at h
    cases h
    exact ⟨_, _, _, h₁, h₂, rfl⟩
  · rintro ⟨t₁, p₁, t₂, hx, hy, rfl⟩
    have hfx := renderChildren_isOk_iff.1 ⟨t₁, p₁, hx⟩
    obtain rfl : add p (yields o (place p.state) xs) = p₁ := by
      rw [renderChildren_of_fits hfx] at hx
      exact (Prod.ext_iff.1 hx).2
    have hfy := renderChildren_isOk_iff.1 ⟨t₂, q, hy⟩
    obtain ⟨h₁, h₂, h₃⟩ := hfits hfx (hplace ▸ hfy)
    rw [h₁] at hx
    rw [h₂] at hy
    cases hx
    cases hy
    exact h₃

/-! ### Siblings below a root of their own -/

/-- **Siblings regrouped**: somewhere among them or below, on a way through branches of a kind, a run
of siblings stands below a root of its own; or nothing is changed. -/
inductive Regrouped (through : Branch → Prop) : List Node → List Node → Prop
  | same (ns : List Node) : Regrouped through ns ns
  | group (before run after : List Node) (loc : Option Mdast.Location) :
    Regrouped through (before ++ run ++ after)
      (before ++ .branch (.container .root) run loc :: after)
  | inside {b : Branch} {ms ns : List Node} (before after : List Node)
      (loc : Option Mdast.Location) : through b → Regrouped through ms ns →
    Regrouped through (before ++ .branch b ms loc :: after) (before ++ .branch b ns loc :: after)

variable {through : Branch → Prop} {ms ns : List Node}

theorem yieldOf_root (at_ : Place) (run : List Node) (loc : Option Mdast.Location) :
    yieldOf o at_ (.branch (.container .root) run loc) = yields o at_ run :=
  yieldOf_of_flows rfl

/-- **Regrouped siblings yield what is alike**, for a likeness of footnotes that the regrouping keeps
where it goes through them. -/
theorem alike_of_regrouped {S : Footnote → Footnote → Prop} (hS : ∀ f, S f f)
    (hnote : ∀ identifier label ms ns, through (.footnoteDefinition identifier label) →
      Regrouped through ms ns → S ⟨identifier, label, ms⟩ ⟨identifier, label, ns⟩)
    (h : Regrouped through ms ns) : ∀ at_,
    Alike (fun _ => true) S (yields o at_ ms) (yields o at_ ns) := by
  have hself : ∀ y : Yield, Alike (fun _ => true) S y y :=
    fun y => alike_self hS (List.filter_eq_self.2 fun _ _ => rfl)
  induction h with
  | same ns => exact fun at_ => hself _
  | group before run after loc =>
    intro at_
    rw [List.append_assoc, yields_append, yields_append, yields_append, yields, yieldOf_root]
    exact hself _
  | @inside b ms ns before after loc hb hreg ih =>
    intro at_
    rw [yields_append, yields_append, yields, yields]
    refine (hself _).append (Alike.append ?_ (hself _))
    exact alike_branch ih fun identifier label he => hnote identifier label ms ns (he ▸ hb) hreg

theorem shown_of_regrouped (h : Regrouped through ms ns) :
    ∀ at_, shownEach at_ ms = shownEach at_ ns := by
  induction h with
  | same ns => exact fun at_ => rfl
  | group before run after loc =>
    intro at_
    have hroot : shown at_ (.branch (.container .root) run loc) = shownEach at_ run :=
      shown_of_flows rfl
    rw [List.append_assoc, shownEach_append, shownEach_append, shownEach_append, shownEach, hroot]
  | inside before after loc hb hreg ih =>
    intro at_
    rw [shownEach_append, shownEach_append, shownEach, shownEach, shown_branch ih]

/-- **Pages do not show how siblings are grouped.** -/
theorem blurred_regrouped : Blurred o (fun _ => true) (Regrouped through) where
  shown := shown_of_regrouped
  alike := alike_of_regrouped (fun f => ⟨rfl, rfl, .same f.children⟩)
    fun _ _ _ _ _ h => ⟨rfl, rfl, h⟩

/-- States that are the same up to related siblings in captured footnotes. -/
structure SameState (R : List Node → List Node → Prop) (s t : State) : Prop where
  definitions : s.definitions = t.definitions
  footnotes : Forall₂ (Paired R) s.footnotes t.footnotes
  table : s.table = t.table
  row : s.row = t.row

/-- Every way into a tree. -/
def anywhere (_ : Branch) : Prop := True

/-- The ways into a tree that do not go into a footnote. -/
def outsideNotes : Branch → Prop
  | .footnoteDefinition .. => False
  | _ => True

theorem sameState_of_alike {R : List Node → List Node → Prop} (hR : ∀ ns, R ns ns) (s : State)
    {y z : Yield} {keep : Record → Bool} (h : Alike keep (Paired R) y z) :
    SameState R (addState s y) (addState s z) where
  definitions := by rw [addState, addState, h.definitions]
  footnotes :=
    List.rel_append (List.forall₂_same.2 fun f _ => ⟨rfl, rfl, hR f.children⟩) h.footnotes
  table := by rw [addState, addState, h.rows]
  row := by rw [addState, addState, h.cells]

theorem walks_of_regrouped (h : Regrouped through ms ns) (p : Pass) :
    (∃ text q q', renderChildren o ms p = (.ok text, q) ∧ renderChildren o ns p = (.ok text, q') ∧
      SameState (Regrouped through) q.state q'.state ∧ q.log = q'.log) ∨
    ∃ e e' q q', renderChildren o ms p = (.error e, q) ∧ renderChildren o ns p = (.error e', q') := by
  rcases blurred_regrouped.walks (o := o) h p with ⟨text, y, z, hm, hn, ha⟩ | hfail
  · refine .inl ⟨text, _, _, hm, hn, sameState_of_alike .same p.state ha, ?_⟩
    have hlog : y.log = z.log := by simpa using ha.log
    rw [add, add, hlog]
  · exact .inr hfail

/-- Where the regrouping does not go through footnotes, the states are the same. -/
theorem yields_of_regrouped (h : Regrouped outsideNotes ms ns) (at_ : Place) :
    yields o at_ ms = yields o at_ ns :=
  (alike_of_regrouped (fun _ => rfl) (fun _ _ _ _ hb _ => hb.elim) h at_).eq

theorem renderChildren_of_regrouped (h : Regrouped outsideNotes ms ns) {p q : Pass} {text : String} :
    renderChildren o ms p = (.ok text, q) ↔ renderChildren o ns p = (.ok text, q) := by
  have hfit := blurred_regrouped.fitsEach_iff (o := o) h (place p.state)
  by_cases hm : FitsEach (place p.state) ms
  · rw [renderChildren_of_fits hm, renderChildren_of_fits (hfit.1 hm), yields_of_regrouped h]
  · exact ⟨fun hr => absurd (renderChildren_isOk_iff.1 ⟨text, q, hr⟩) hm,
      fun hr => absurd (hfit.2 (renderChildren_isOk_iff.1 ⟨text, q, hr⟩)) hm⟩

/-- **Siblings compose**: a row of siblings is walked in two parts. At one place the same siblings
give the same, a text if they are textual, and add the same, whatever is there before. And it makes
no difference to texts and pages whether a run of siblings, anywhere in a tree, stands below a root
of its own; nor to states, up to that root in the footnotes around it, which are captured with it. -/
theorem siblings_compose (o : PageOptions) :
    (∀ (xs ys : List Node) (p q : Pass) (text : String),
      renderChildren o (xs ++ ys) p = (.ok text, q) ↔
        ∃ t₁ p₁ t₂, renderChildren o xs p = (.ok t₁, p₁) ∧ renderChildren o ys p₁ = (.ok t₂, q) ∧
          text = t₁ ++ t₂) ∧
    (∀ (ns : List Node) (at_ : Place), ∃ (r : Except Fault String) (y : Yield),
      (∀ p, place p.state = at_ → renderChildren o ns p = (r, add p y)) ∧
        (TextualEach ns → ∃ text, r = .ok text)) ∧
    (∀ ms ns : List Node, Regrouped outsideNotes ms ns → ∀ (p q : Pass) (text : String),
      renderChildren o ms p = (.ok text, q) ↔ renderChildren o ns p = (.ok text, q)) ∧
    ∀ ms ns : List Node, Regrouped anywhere ms ns →
      (∀ p, (∃ text q q', renderChildren o ms p = (.ok text, q) ∧
          renderChildren o ns p = (.ok text, q') ∧
          SameState (Regrouped anywhere) q.state q'.state ∧ q.log = q'.log) ∨
        ∃ e e' q q', renderChildren o ms p = (.error e, q) ∧
          renderChildren o ns p = (.error e', q')) ∧
      ∀ (loc : Option Mdast.Location) (log : List Record) (page : String) (after : List Record),
        render o (.branch (.container .root) ms loc) log = (.ok page, after) ↔
          render o (.branch (.container .root) ns loc) log = (.ok page, after) := by
  refine ⟨fun xs ys p q text => renderChildren_append_iff, fun ns at_ => ?_,
    fun ms ns h p q text => renderChildren_of_regrouped h,
    fun ms ns h => ⟨walks_of_regrouped h, fun loc log page after => ?_⟩⟩
  · obtain ⟨r, y, hr⟩ := isLocal.renderChildren (o := o) ns at_
    refine ⟨r, y, hr, fun ht => ?_⟩
    have hwalk := renderChildren_eq (o := o) ht { state := stateAt at_ }
    rw [hr _ (place_stateAt at_)] at hwalk
    exact ⟨_, (Prod.ext_iff.1 hwalk).1⟩
  · rcases blurred_regrouped.pages (o := o) h loc loc log with
      ⟨page', hm, hn⟩ | ⟨e, e', q, q', hm, hn⟩
    · rw [hm, hn, List.filter_eq_self.2 fun _ _ => rfl]
    · rw [hm, hn]
      exact ⟨nofun, nofun⟩

/-- A footnote in a quote, and a text after it. -/
def quoted (content : List Node) : List Node :=
  [.container .blockquote [note "n" content], .text "c"]

/-- Two texts. -/
def pair : List Node := [.text "a", .container .emphasis [.text "b"]]

theorem siblings_compose_quoted :
    Regrouped anywhere (quoted pair) (quoted [.container .root pair]) ∧
    Regrouped outsideNotes pair [.container .root pair] ∧ TextualEach pair ∧
    renderChildren {} pair {} = (.ok "a[i]b[/i]", {}) ∧
    renderChildren {} [.container .root pair] {} = (.ok "a[i]b[/i]", {}) ∧
    (∃ t₁ p₁ t₂, renderChildren {} [.text "a"] {} = (.ok t₁, p₁) ∧
      renderChildren {} [.container .emphasis [.text "b"]] p₁ = (.ok t₂, {}) ∧
        "a[i]b[/i]" = t₁ ++ t₂) ∧
    (∃ (r : Except Fault String) (y : Yield),
      (∀ p, place p.state = { row := true } → renderChildren {} pair p = (r, add p y)) ∧
        ∃ text, r = .ok text) ∧
    render {} (.container .root (quoted pair)) [] =
      (.ok "[quote][/quote]\nc\n^n: a[i]b[/i]", []) ∧
    render {} (.container .root (quoted [.container .root pair])) [] =
      (.ok "[quote][/quote]\nc\n^n: a[i]b[/i]", []) := by
  obtain ⟨hparts, hplace, hexact, hpages⟩ := siblings_compose {}
  have hgroup : Regrouped outsideNotes pair [.container .root pair] := .group [] pair [] none
  have hinside : Regrouped anywhere (quoted pair) (quoted [.container .root pair]) :=
    .inside [] [.text "c"] none trivial (.inside [] [] none trivial (.group [] pair [] none))
  have ht : TextualEach pair := by decide
  have hr : renderChildren {} pair {} = (.ok "a[i]b[/i]", {}) := by cbv
  have ha : assemble {} (quoted pair) {} = (.ok "[quote][/quote]\nc\n^n: a[i]b[/i]",
      { state := { footnotes := [⟨.str "n", .null, pair⟩] } }) := by cbv
  have hp : render {} (.container .root (quoted pair)) [] =
      (.ok "[quote][/quote]\nc\n^n: a[i]b[/i]", []) := by
    refine (render_root _ none []).trans ?_
    rw [ha]
    cbv
  obtain ⟨r, y, hat, htext⟩ := hplace pair { row := true }
  exact ⟨hinside, hgroup, ht, hr, (hexact _ _ hgroup {} {} _).1 hr, (hparts _ _ {} {} _).1 hr,
    ⟨r, y, hat, htext ht⟩, hp, ((hpages _ _ hinside).2 none [] _ _).1 hp⟩

/-- **A footnote is captured as its siblings are grouped**: they stand below a root of their own in
one of the captured footnotes and not in the other, so the states differ. -/
theorem footnote_keeps_grouping :
    Regrouped anywhere [note "n" pair] [note "n" [.container .root pair]] ∧
    ∃ q q', renderChildren {} [note "n" pair] {} = (.ok "", q) ∧
      renderChildren {} [note "n" [.container .root pair]] {} = (.ok "", q') ∧
      q.state.footnotes.map (·.children) = [pair] ∧
      q'.state.footnotes.map (·.children) = [[.container .root pair]] ∧ q.state ≠ q'.state := by
  refine ⟨.inside [] [] none trivial (.group [] pair [] none), _, _, by cbv, by cbv, rfl, rfl, ?_⟩
  intro h
  have hchildren := congrArg (fun s : State => s.footnotes.map (·.children)) h
  cases hchildren

end Bulletin.Proofs.Page.Siblings
