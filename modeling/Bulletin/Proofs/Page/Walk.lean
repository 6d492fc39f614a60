import Bulletin.Page.Render
import Bulletin.Proofs.Mdast.Tree
import Bulletin.Proofs.Runs
import Mathlib.Tactic.Set
import Mathlib.Tactic.SplitIfs

/-! # What a walk yields

What a walk over a tree does depends on little of the state in which it starts: on whether there is a
table and whether there is a row (`Place`). Some literals are shown as they are (`shown`), and a walk
cannot fail if the values that it shows so are texts. It adds to the text, to what is captured, to the
rows and cells and to the log, and all that it adds is its `Yield`. `yieldOf` and `yields` are the
walk without its state.

* `renderChildren_of_fits`: the walk over siblings that fit their place gives the text of their yield
  and a state to which the yield is added.
* `renderChildren_eq`: the same of siblings whose literals all hold texts.
* `yields_append`: the yield of two rows of siblings is that of the one and then that of the
  other. -/

namespace Bulletin.Proofs.Page.Walk

open Bulletin.Page
open Bulletin.Mdast (Node Leaf Branch)
open Runs (bind_ok get_bind)

/-! ### Places and yields -/

/-- What a walk asks of its state: whether there is a table, and whether there is a row. -/
structure Place where
  table : Bool := false
  row : Bool := false
  deriving DecidableEq

/-- The place of a state. -/
def place (s : State) : Place := ⟨s.table.isSome, s.row.isSome⟩

/-- **What a walk adds**: text, captured definitions and footnotes, rows, cells and records. -/
structure Yield where
  text : String := ""
  definitions : List Mdast.Definition := []
  footnotes : List Footnote := []
  rows : List (List String) := []
  cells : List String := []
  log : List Record := []

/-- One yield and then another. -/
def Yield.append (y z : Yield) : Yield where
  text := y.text ++ z.text
  definitions := y.definitions ++ z.definitions
  footnotes := y.footnotes ++ z.footnotes
  rows := y.rows ++ z.rows
  cells := y.cells ++ z.cells
  log := y.log ++ z.log

instance : Append Yield := ⟨Yield.append⟩

section Yield
variable (y z w : Yield)

@[simp] theorem append_text : (y ++ z).text = y.text ++ z.text := rfl
@[simp] theorem append_definitions : (y ++ z).definitions = y.definitions ++ z.definitions := rfl
@[simp] theorem append_footnotes : (y ++ z).footnotes = y.footnotes ++ z.footnotes := rfl
@[simp] theorem append_rows : (y ++ z).rows = y.rows ++ z.rows := rfl
@[simp] theorem append_cells : (y ++ z).cells = y.cells ++ z.cells := rfl
@[simp] theorem append_log : (y ++ z).log = y.log ++ z.log := rfl

theorem nothing_append : ({} : Yield) ++ y = y := by
  show Yield.append {} y = y
  simp [Yield.append]

theorem append_assoc : y ++ z ++ w = y ++ (z ++ w) := by
  show Yield.append (Yield.append y z) w = Yield.append y (Yield.append z w)
  simp [Yield.append, String.append_assoc]

end Yield

/-- A state to which a yield is added. -/
def addState (s : State) (y : Yield) : State where
  definitions := s.definitions ++ y.definitions
  footnotes := s.footnotes ++ y.footnotes
  table := s.table.map (· ++ y.rows)
  row := s.row.map (· ++ y.cells)

/-- A pass to which a yield is added. -/
def add (p : Pass) (y : Yield) : Pass := ⟨addState p.state y, p.log ++ y.log⟩

theorem place_addState (s : State) (y : Yield) : place (addState s y) = place s := by
  simp [place, addState]

theorem add_nothing (p : Pass) (t : String) : add p { text := t } = p := by
  simp [add, addState]

theorem add_add (p : Pass) (y z : Yield) : add (add p y) z = add p (y ++ z) := by
  simp [add, addState, Function.comp_def]

/-! ### Walks without their state -/

/-- A state at a place, with nothing in it. -/
def stateAt (at_ : Place) : State where
  table := if at_.table then some [] else none
  row := if at_.row then some [] else none

/-- The text that the visit of a leaf gives at a place. -/
def leafText (o : PageOptions) (at_ : Place) (l : Leaf) : String :=
  (visitLeaf o l { state := stateAt at_ }).1.toOption.elim "" (·.text.display)

/-- The record of a construct that is dropped. -/
def dropped (k : Mdast.Foreign) : Record :=
  ⟨.warning, .renderer, k.category ++ " not supported in nexus bbcode"⟩

/-- The yield of a leaf at a place. -/
def leafYield (o : PageOptions) (at_ : Place) : Leaf → Yield
  | .definition d => { definitions := [d] }
  | .foreign k _ _ => { log := [dropped k] }
  | l => { text := leafText o at_ l }

mutual

/-- **The yield of a node at a place.** -/
def yieldOf (o : PageOptions) (at_ : Place) : Node → Yield
  | .leaf l _ => leafYield o at_ l
  | .branch b ns _ =>
    match b with
    | .container .tableRow =>
      if at_.table then
        let y := yields o { row := true } ns
        { rows := [y.cells], log := y.log }
      else {}
    | .container .tableCell =>
      if at_.row then
        let y := yields o at_ ns
        { y with text := "", cells := y.cells ++ [y.text] }
      else {}
    | .table _ =>
      let y := yields o { table := true } ns
      { text := "[code]" ++ drawRows y.rows ++ "[/code]\n", log := y.log }
    | .footnoteDefinition identifier label => { footnotes := [⟨identifier, label, ns⟩] }
    | b =>
      let y := yields o at_ ns
      { y with text := wrap o y.text b }

/-- **The yield of siblings at a place.** -/
def yields (o : PageOptions) (at_ : Place) : List Node → Yield
  | [] => {}
  | n :: ns => yieldOf o at_ n ++ yields o at_ ns

end

theorem yields_append (o : PageOptions) (at_ : Place) : ∀ ms ns : List Node,
    yields o at_ (ms ++ ns) = yields o at_ ms ++ yields o at_ ns
  | [], ns => (nothing_append _).symm
  | m :: ms, ns => by
    rw [List.cons_append, yields, yields, yields_append o at_ ms ns, append_assoc]

/-! ### Values that are shown as they are -/

/-- Whether a literal is shown as it is at a place. -/
def bare (at_ : Place) : Mdast.Literal → Bool
  | .text => true
  | .html => true
  | .inlineCode => at_.table || at_.row
  | .inlineMath => at_.table || at_.row
  | _ => false

mutual

/-- **The values that the walk over a tree shows as they are**, at a place. -/
def shown (at_ : Place) : Node → List Value
  | .leaf (.literal k v) _ => if bare at_ k then [v] else []
  | .leaf .. => []
  | .branch b ns _ =>
    match b with
    | .container .tableRow => if at_.table then shownEach { row := true } ns else []
    | .container .tableCell => if at_.row then shownEach at_ ns else []
    | .table _ => shownEach { table := true } ns
    | .footnoteDefinition .. => []
    | _ => shownEach at_ ns

/-- The values that the walk over siblings shows as they are, at a place. -/
def shownEach (at_ : Place) : List Node → List Value
  | [] => []
  | n :: ns => shown at_ n ++ shownEach at_ ns

end

theorem shownEach_append (at_ : Place) : ∀ ms ns : List Node,
    shownEach at_ (ms ++ ns) = shownEach at_ ms ++ shownEach at_ ns
  | [], ns => rfl
  | m :: ms, ns => by
    rw [List.cons_append, shownEach, shownEach, shownEach_append at_ ms ns, List.append_assoc]

/-- **A tree that fits a place**: all that it shows there as it is are texts. -/
def Fits (at_ : Place) (n : Node) : Prop := ∀ v ∈ shown at_ n, v.text?.isSome

/-- Siblings that fit a place. -/
def FitsEach (at_ : Place) (ns : List Node) : Prop := ∀ v ∈ shownEach at_ ns, v.text?.isSome

instance (at_ : Place) (ns : List Node) : Decidable (FitsEach at_ ns) := by
  unfold FitsEach; infer_instance

theorem fitsEach_append {at_ : Place} {ms ns : List Node} :
    FitsEach at_ (ms ++ ns) ↔ FitsEach at_ ms ∧ FitsEach at_ ns := by
  unfold FitsEach
  rw [shownEach_append]
  exact List.forall_mem_append

theorem fitsEach_cons {at_ : Place} {n : Node} {ns : List Node} :
    FitsEach at_ (n :: ns) ↔ Fits at_ n ∧ FitsEach at_ ns := by
  unfold FitsEach Fits
  rw [shownEach]
  exact List.forall_mem_append

theorem fitsEach_iff {at_ : Place} : ∀ {ns : List Node}, FitsEach at_ ns ↔ ∀ n ∈ ns, Fits at_ n
  | [] => by simp [FitsEach, shownEach]
  | n :: ns => by rw [fitsEach_cons, fitsEach_iff, List.forall_mem_cons]

/-! ### Steps of a walk -/

variable {o : PageOptions} {p q : Pass}

theorem isolated_ok {α : Type} {s : State} {w : Walk α} {a : α}
    (h : w { p with state := s } = (.ok a, q)) :
    isolated s w p = (.ok (a, q.state), { q with state := p.state }) := by
  unfold isolated; rw [h]; rfl

/-- A pass after an effect. -/
def apply (e : Option Effect) (p : Pass) : Pass :=
  { p with state := e.elim p.state (·.apply p.state) }

/-- A visit that gives the text of a yield, and an effect that makes it up in the end. -/
def Visits (o : PageOptions) (n : Node) (p : Pass) : Prop :=
  ∃ e q, visit o n p = (.ok ⟨.str (yieldOf o (place p.state) n).text, e⟩, q) ∧
    apply e q = add p (yieldOf o (place p.state) n)

/-- The visit of a leaf that asks for no effect and reports nothing. -/
theorem visits_of_text {l : Leaf} {loc : Option Mdast.Location}
    (hv : visitLeaf o l p = (.ok ⟨.str (leafText o (place p.state) l), none⟩, p))
    (hy : leafYield o (place p.state) l = { text := leafText o (place p.state) l }) :
    Visits o (.leaf l loc) p := by
  refine ⟨none, p, ?_, ?_⟩
  · rw [visit, hv, yieldOf, hy]
  · rw [yieldOf, hy, add_nothing]; rfl

theorem Fits.literal {at_ : Place} {k : Mdast.Literal} {v : Value} {loc : Option Mdast.Location}
    (h : Fits at_ (.leaf (.literal k v) loc)) (hb : bare at_ k = true) : ∃ s, v = .str s := by
  have hv : v.text?.isSome := h v (by rw [shown, if_pos hb]; exact List.mem_singleton_self v)
  cases v with
  | str s => exact ⟨s, rfl⟩
  | _ => cases hv

theorem visits_leaf {l : Leaf} {loc : Option Mdast.Location} (h : Fits (place p.state) (.leaf l loc)) :
    Visits o (.leaf l loc) p := by
  cases l with
  | literal k v =>
    refine visits_of_text ?_ rfl
    by_cases hb : bare (place p.state) k = true
    · obtain ⟨s, rfl⟩ := h.literal hb
      cases k with
      | inlineCode => obtain ⟨⟨ds, fs, t, r⟩, log⟩ := p; cases t <;> cases r <;> rfl
      | inlineMath => obtain ⟨⟨ds, fs, t, r⟩, log⟩ := p; cases t <;> cases r <;> rfl
      | _ => rfl
    · cases k with
      | text => exact absurd rfl hb
      | html => exact absurd rfl hb
      | inlineCode =>
        obtain ⟨⟨ds, fs, t, r⟩, log⟩ := p
        cases t <;> cases r <;> first | rfl | exact absurd rfl hb
      | inlineMath =>
        obtain ⟨⟨ds, fs, t, r⟩, log⟩ := p
        cases t <;> cases r <;> first | rfl | exact absurd rfl hb
      | _ => rfl
  | definition d =>
    refine ⟨some (.define d), p, by rw [visit]; rfl, ?_⟩
    simp [apply, add, addState, yieldOf, leafYield, Effect.apply]
  | foreign k v name =>
    refine ⟨none, { p with log := p.log ++ [dropped k] }, by rw [visit]; rfl, ?_⟩
    simp [apply, add, addState, yieldOf, leafYield]
  | _ => exact visits_of_text rfl rfl

/-- The branches whose children stand in the text around them. -/
def flows : Branch → Bool
  | .container .tableRow => false
  | .container .tableCell => false
  | .table _ => false
  | .footnoteDefinition .. => false
  | _ => true

section Branches
variable {b : Branch} {ns : List Node} {loc : Option Mdast.Location}

theorem visit_of_flows (h : flows b = true) :
    visit o (.branch b ns loc) = (do return plain (wrap o (← renderChildren o ns) b)) := by
  cases b with
  | container k => cases k <;> first | exact Bool.noConfusion h | simp only [visit]
  | table _ => exact Bool.noConfusion h
  | footnoteDefinition _ _ => exact Bool.noConfusion h
  | _ => simp only [visit]

theorem yieldOf_of_flows {at_ : Place} (h : flows b = true) : yieldOf o at_ (.branch b ns loc) =
    { yields o at_ ns with text := wrap o (yields o at_ ns).text b } := by
  cases b with
  | container k => cases k <;> first | exact Bool.noConfusion h | simp only [yieldOf]
  | table _ => exact Bool.noConfusion h
  | footnoteDefinition _ _ => exact Bool.noConfusion h
  | _ => simp only [yieldOf]

theorem shown_of_flows {at_ : Place} (h : flows b = true) :
    shown at_ (.branch b ns loc) = shownEach at_ ns := by
  cases b with
  | container k => cases k <;> first | exact Bool.noConfusion h | simp only [shown]
  | table _ => exact Bool.noConfusion h
  | footnoteDefinition _ _ => exact Bool.noConfusion h
  | _ => simp only [shown]

/-- The walk over siblings gives what they yield, wherever it starts at a place. -/
def Walks (o : PageOptions) (at_ : Place) (ns : List Node) : Prop :=
  ∀ p : Pass, place p.state = at_ →
    renderChildren o ns p = (.ok (yields o at_ ns).text, add p (yields o at_ ns))

theorem visits_of_flows (hw : Walks o (place p.state) ns) (h : flows b = true) :
    Visits o (.branch b ns loc) p := by
  refine ⟨none, add p (yields o (place p.state) ns), ?_, ?_⟩
  · rw [visit_of_flows h, bind_ok (hw p rfl), yieldOf_of_flows h]; rfl
  · rw [yieldOf_of_flows h]; rfl

theorem visits_table {align : Value} (hw : Walks o { table := true } ns) :
    Visits o (.branch (.table align) ns loc) p := by
  set y := yields o { table := true } ns with hy
  have hiso : isolated { table := some [] } (renderChildren o ns) p =
      (.ok (y.text, addState { table := some [] } y), { p with log := p.log ++ y.log }) :=
    isolated_ok (hw { p with state := { table := some [] } } rfl)
  refine ⟨none, { p with log := p.log ++ y.log }, ?_, ?_⟩
  · rw [visit, bind_ok hiso, yieldOf, ← hy]
    simp only [addState, Option.map_some, Option.getD_some, List.nil_append]
    rfl
  · rw [yieldOf, ← hy]
    simp [apply, add, addState]

theorem visits_tableRow (hw : (place p.state).table = true → Walks o { row := true } ns) :
    Visits o (.branch (.container .tableRow) ns loc) p := by
  by_cases ht : p.state.table.isNone
  · have hp : (place p.state).table = false := by simpa [place] using ht
    refine ⟨none, p, ?_, ?_⟩
    · rw [visit, get_bind, if_pos ht, yieldOf, hp]; rfl
    · rw [yieldOf, hp]; exact (add_nothing p "").symm
  · have hp : (place p.state).table = true := by
      simpa [place, Option.isSome_iff_ne_none] using ht
    set y := yields o { row := true } ns with hy
    have hiso : isolated { row := some [] } (renderChildren o ns) p =
        (.ok (y.text, addState { row := some [] } y), { p with log := p.log ++ y.log }) :=
      isolated_ok (hw hp { p with state := { row := some [] } } rfl)
    refine ⟨some (.appendRow y.cells), { p with log := p.log ++ y.log }, ?_, ?_⟩
    · rw [visit, get_bind, if_neg ht, bind_ok hiso, yieldOf, hp, if_pos rfl]
      simp only [addState, Option.map_some, Option.getD_some, List.nil_append]
      rfl
    · rw [yieldOf, hp, if_pos rfl, ← hy]
      simp [apply, add, addState, Effect.apply]

theorem visits_tableCell (hw : (place p.state).row = true → Walks o (place p.state) ns) :
    Visits o (.branch (.container .tableCell) ns loc) p := by
  by_cases hr : p.state.row.isNone
  · have hp : (place p.state).row = false := by simpa [place] using hr
    refine ⟨none, p, ?_, ?_⟩
    · rw [visit, get_bind, if_pos hr, yieldOf, hp]; rfl
    · rw [yieldOf, hp]; exact (add_nothing p "").symm
  · have hp : (place p.state).row = true := by
      simpa [place, Option.isSome_iff_ne_none] using hr
    set y := yields o (place p.state) ns with hy
    refine ⟨some (.appendCell y.text), add p y, ?_, ?_⟩
    · rw [visit, get_bind, if_neg hr, bind_ok (hw hp p rfl), yieldOf, hp, if_pos rfl]; rfl
    · rw [yieldOf, hp, if_pos rfl, ← hy]
      simp [apply, add, addState, Effect.apply, Function.comp_def]

theorem visits_footnote {identifier label : Value} :
    Visits o (.branch (.footnoteDefinition identifier label) ns loc) p := by
  refine ⟨some (.note ⟨identifier, label, ns⟩), p, by rw [visit, yieldOf]; rfl, ?_⟩
  rw [yieldOf]
  simp [apply, add, addState, Effect.apply]

end Branches

/-! ### Whole walks -/

theorem walks_of_visits {at_ : Place} : ∀ (ns : List Node),
    (∀ n ∈ ns, ∀ p : Pass, place p.state = at_ → Visits o n p) → ∀ p : Pass, place p.state = at_ →
      ∃ vs : List Value, visitEach o ns p = (.ok vs, add p (yields o at_ ns)) ∧
        ∀ i, joinTexts i vs = .ok (yields o at_ ns).text
  | [], _, p, _ => ⟨[], by rw [visitEach, yields, add_nothing]; rfl, fun _ => rfl⟩
  | n :: ns, h, p, hp => by
    obtain ⟨e, q, hv, he⟩ := h n (by simp) p hp
    rw [hp] at hv he
    obtain ⟨vs, hvs, hj⟩ := walks_of_visits ns (fun m hm => h m (List.mem_cons_of_mem n hm))
      (add p (yieldOf o at_ n)) ((place_addState _ _).trans hp)
    refine ⟨.str (yieldOf o at_ n).text :: vs, ?_, fun i => ?_⟩
    · have hm : (modify (apply e) : Walk Unit) q = (.ok (), add p (yieldOf o at_ n)) := by
        rw [← he]; rfl
      rw [visitEach, bind_ok hv]
      refine (bind_ok hm).trans ?_
      rw [bind_ok hvs, add_add, yields]
      rfl
    · rw [joinTexts, hj]; rfl

theorem walks_of_each {at_ : Place} {ns : List Node}
    (h : ∀ n ∈ ns, ∀ p : Pass, place p.state = at_ → Visits o n p) : Walks o at_ ns := by
  intro p hp
  obtain ⟨vs, hvs, hj⟩ := walks_of_visits ns h p hp
  rw [renderChildren, bind_ok hvs, hj]
  rfl

theorem visits (n : Node) : ∀ p : Pass, Fits (place p.state) n → Visits o n p := by
  induction n using Node.induct with
  | leaf l loc => exact fun p h => visits_leaf h
  | branch b ns loc ih =>
    intro p h
    have hw : ∀ at_ : Place, FitsEach at_ ns → Walks o at_ ns := fun at_ hat =>
      walks_of_each fun n hn q hq => ih n hn q (hq ▸ fitsEach_iff.1 hat n hn)
    by_cases hf : flows b = true
    · refine visits_of_flows (hw _ ?_) hf
      rwa [Fits, shown_of_flows hf] at h
    · cases b with
      | table align => exact visits_table (hw _ (by rwa [Fits, shown] at h))
      | footnoteDefinition identifier label => exact visits_footnote
      | container k =>
        cases k with
        | tableRow =>
          exact visits_tableRow fun ht => hw _ (by rwa [Fits, shown, if_pos ht] at h)
        | tableCell =>
          exact visits_tableCell fun hr => hw _ (by rwa [Fits, shown, if_pos hr] at h)
        | _ => exact absurd rfl hf
      | _ => exact absurd rfl hf

/-- **A walk over siblings that fit their place gives their yield**, and adds it to its state. -/
theorem renderChildren_of_fits {ns : List Node} {p : Pass} (h : FitsEach (place p.state) ns) :
    renderChildren o ns p =
      (.ok (yields o (place p.state) ns).text, add p (yields o (place p.state) ns)) :=
  walks_of_each (fun n hn q hq => visits n q (hq ▸ fitsEach_iff.1 h n hn)) p rfl

theorem fits_of_textual (n : Node) : n.Textual → ∀ at_, Fits at_ n := by
  induction n using Node.induct with
  | leaf l loc =>
    intro h at_
    cases l with
    | literal k v =>
      obtain ⟨s, rfl⟩ := h.literal
      rw [Fits, shown]
      split_ifs <;> simp [Value.text?]
    | _ => simp [Fits, shown]
  | branch b ns loc ih =>
    intro h
    rw [Node.textual_branch] at h
    have hns : ∀ at_, FitsEach at_ ns := fun at_ => fitsEach_iff.2 fun n hn => ih n hn (h n hn) at_
    intro at_
    by_cases hf : flows b = true
    · rw [Fits, shown_of_flows hf]
      exact hns at_
    · rw [Fits, shown.eq_def]
      cases b with
      | table align => exact hns _
      | footnoteDefinition identifier label => simp
      | container k =>
        cases k with
        | tableRow =>
          dsimp only
          split_ifs
          · exact hns _
          · simp
        | tableCell =>
          dsimp only
          split_ifs
          · exact hns _
          · simp
        | _ => exact absurd rfl hf
      | _ => exact absurd rfl hf

/-- **A walk over textual siblings gives their yield**, and adds it to its state. -/
theorem renderChildren_eq {ns : List Node} (h : ∀ n ∈ ns, n.Textual) (p : Pass) :
    renderChildren o ns p =
      (.ok (yields o (place p.state) ns).text, add p (yields o (place p.state) ns)) :=
  renderChildren_of_fits (fitsEach_iff.2 fun n hn => fits_of_textual n (h n hn) _)

end Bulletin.Proofs.Page.Walk
