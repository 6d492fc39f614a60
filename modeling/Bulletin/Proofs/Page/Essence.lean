import Bulletin.Proofs.Page.Fitting
import Bulletin.Proofs.Page.Steps
import Mathlib

/-! # What a page does not show of a tree

Some of what nodes carry is shown on no page: the level of a heading, the start of a list, the
language of code, the titles of links and images and the alternative text of images, the alignment
of tables, all labels, what an MDX construct holds, and the places of nodes in their source. The
essence of a tree is the tree without all that (`Node.essence`). A walk over the essence of a tree
does what the walk over the tree does, step by step, up to essences in what it captures
(`InEssence`). So trees with the same essence have the same page and the same records
(`same_essence_same_page`).

The font is shown only outside of tables. The walks are therefore compared under two options, which
have headings of the same size and where it matters the same font (`Agree`). -/

/-! ### Essences -/

namespace Bulletin.Mdast

/-- A link definition without its label. -/
def Definition.essence (d : Definition) : Definition := { d with label := .null }

/-- **A leaf without what no page shows of it.** -/
def Leaf.essence : Leaf → Leaf
  | .literal k v => .literal k v
  | .code v _ => .code v .null
  | .thematicBreak => .thematicBreak
  | .lineBreak => .lineBreak
  | .image url _ _ => .image url .null .null
  | .footnoteReference identifier _ => .footnoteReference identifier .null
  | .definition d => .definition d.essence
  | .imageReference identifier alt _ => .imageReference identifier alt .null
  | .foreign k _ _ => .foreign k .null .null

/-- **A branch without what no page shows of it.** -/
def Branch.essence : Branch → Branch
  | .container k => .container k
  | .heading _ => .heading .null
  | .list ordered _ => .list ordered .null
  | .table _ => .table .null
  | .link url _ => .link url .null
  | .footnoteDefinition identifier _ => .footnoteDefinition identifier .null
  | .linkReference identifier _ => .linkReference identifier .null

namespace Node

mutual

/-- **A tree without what no page shows of it.** -/
def essence : Node → Node
  | leaf l _ => leaf l.essence none
  | branch b ns _ => branch b.essence (essenceEach ns) none

/-- Trees without what no page shows of them. -/
def essenceEach : List Node → List Node
  | [] => []
  | n :: ns => essence n :: essenceEach ns

end

theorem sizes_of_each : ∀ {ns : List Node}, (∀ n ∈ ns, n.essence.size = n.size) →
    sizes (essenceEach ns) = sizes ns
  | [], _ => rfl
  | n :: ns, h => by
    rw [List.forall_mem_cons] at h
    rw [essenceEach, sizes, sizes, h.1, sizes_of_each h.2]

theorem size_essence (n : Node) : n.essence.size = n.size := by
  induction n using Node.induct with
  | leaf l p => rfl
  | branch b ns p ih => rw [essence, size, size, sizes_of_each ih]

theorem sizes_essenceEach (ns : List Node) : sizes (essenceEach ns) = sizes ns :=
  sizes_of_each fun n _ => size_essence n

end Node

end Bulletin.Mdast

namespace Bulletin.Page

open Mdast (Node)

/-- A captured footnote without what no page shows of it. -/
def Footnote.essence (f : Footnote) : Footnote := ⟨f.identifier, .null, Node.essenceEach f.children⟩

/-- An effect with the essence of what it captures. -/
def Effect.essence : Effect → Effect
  | define d => define d.essence
  | note f => note f.essence
  | appendRow cells => appendRow cells
  | appendCell text => appendCell text

/-- What a visit gives, with the essence of what it captures. -/
def Rendered.essence (r : Rendered) : Rendered := ⟨r.text, r.effect.map Effect.essence⟩

/-- A state with the essences of what is captured. -/
def State.essence (s : State) : State :=
  { s with
    definitions := s.definitions.map Mdast.Definition.essence
    footnotes := s.footnotes.map Footnote.essence }

/-- A pass with the essences of what is captured. -/
def Pass.essence (p : Pass) : Pass := { p with state := p.state.essence }

theorem State.essence_apply (s : State) (e : Option Effect) :
    (e.elim s (·.apply s)).essence = (e.map Effect.essence).elim s.essence (·.apply s.essence) := by
  rcases e with _ | ⟨d⟩ | ⟨f⟩ | ⟨cells⟩ | ⟨text⟩ <;> simp [State.essence, Effect.essence, Effect.apply]

end Bulletin.Page

namespace Bulletin.Proofs.Page.Essence

open Bulletin.Page
open Bulletin.Mdast (Node Leaf Branch)
open Bulletin.Mdast.Node (essenceEach sizes_essenceEach)
open Bulletin.Proofs.Page.Walk
open Bulletin.Proofs.Page.Fitting
open Runs (bind_ok bind_error get_bind)

/-! ### Walks in essence -/

/-- Options that agree at a place: outside of tables they have the same font. -/
def Agree (o o' : PageOptions) (at_ : Place) : Prop :=
  o.font = o'.font ∨ (at_.table || at_.row) = true

/-- **A walk that is another one in essence**: started in the essence of a state it gives what the
other gives, up to `f`, and leaves the essence of the state that the other leaves. -/
def InEssence {α β : Type} (o o' : PageOptions) (f : α → β) (v : Walk α) (w : Walk β) : Prop :=
  ∀ p : Pass, Agree o o' (place p.state) →
    w p.essence = ((v p).1.map f, (v p).2.essence) ∧ place (v p).2.state = place p.state

section Steps
variable {o o' : PageOptions} {α β γ δ : Type} {f : α → β} {g : γ → δ}

theorem inEssence_pure {a : α} {b : β} (h : f a = b) : InEssence o o' f (pure a) (pure b) :=
  fun _ _ => ⟨by rw [← h]; rfl, rfl⟩

theorem InEssence.bind {v : Walk α} {w : Walk β} {k : α → Walk γ} {k' : β → Walk δ}
    (hv : InEssence o o' f v w) (hk : ∀ a, InEssence o o' g (k a) (k' (f a))) :
    InEssence o o' g (v >>= k) (w >>= k') := by
  intro p hp
  obtain ⟨hw, hplace⟩ := hv p hp
  rcases hr : v p with ⟨e | a, q⟩ <;> rw [hr] at hw hplace
  · rw [bind_error hr, bind_error hw]
    exact ⟨rfl, hplace⟩
  · obtain ⟨hw', hplace'⟩ := hk a q (hplace.symm ▸ hp)
    rw [bind_ok hr, bind_ok hw]
    exact ⟨hw', hplace'.trans hplace⟩

theorem inEssence_get {k : Pass → Walk α} {k' : Pass → Walk β}
    (h : ∀ p, Agree o o' (place p.state) → InEssence o o' f (k p) (k' p.essence)) :
    InEssence o o' f (get >>= k) (get >>= k') := by
  intro p hp
  rw [get_bind, get_bind]
  exact h p hp p hp

theorem inEssence_modify {m m' : Pass → Pass} (h : ∀ p, m' p.essence = (m p).essence)
    (hplace : ∀ p, place (m p).state = place p.state) :
    InEssence o o' id (modify m) (modify m') := by
  intro p _
  refine ⟨?_, hplace p⟩
  show ((.ok () : Except Fault Unit), m' p.essence) = (.ok (), (m p).essence)
  rw [h]

theorem inEssence_isolated {s : State} {v : Walk α} {w : Walk β} (hs : s.essence = s)
    (hat : Agree o o' (place s)) (h : InEssence o o' f v w) :
    InEssence o o' (fun r => (f r.1, r.2.essence)) (isolated s v) (isolated s w) := by
  intro p _
  have hw := (h { p with state := s } hat).1
  have hstart : ({ p with state := s } : Pass).essence = { p.essence with state := s } := by
    rw [Pass.essence, hs]
    rfl
  rw [hstart] at hw
  refine ⟨?_, rfl⟩
  unfold isolated
  rw [hw]
  rcases v { p with state := s } with ⟨e | a, q⟩ <;> rfl

theorem inEssence_join (vs : List Value) :
    InEssence o o' id (ExceptT.mk (pure (joinTexts 0 vs))) (ExceptT.mk (pure (joinTexts 0 vs))) := by
  intro p _
  refine ⟨?_, rfl⟩
  show (joinTexts 0 vs, p.essence) = ((joinTexts 0 vs).map id, p.essence)
  cases joinTexts 0 vs <;> rfl

end Steps

/-! ### Nodes and siblings -/

section Nodes
variable {o o' : PageOptions} (hsize : o.headingSize = o'.headingSize)

theorem inEssence_leaf (l : Leaf) :
    InEssence o o' Rendered.essence (visitLeaf o l) (visitLeaf o' l.essence) := by
  -- the only leaves for which the options and the state matter: the font is theirs
  have hmono : ∀ v, InEssence o o' Rendered.essence (monospace o v) (monospace o' v) := by
    refine fun v => inEssence_get fun p hp => ?_
    rcases hp with hfont | hin
    · rw [show p.essence.state.inTable = p.state.inTable from rfl, hfont]
      split_ifs <;> exact inEssence_pure rfl
    · have hin' : p.state.inTable = true := hin
      rw [show p.essence.state.inTable = p.state.inTable from rfl, if_pos hin', if_pos hin']
      exact inEssence_pure rfl
  cases l with
  | literal k v =>
    cases k with
    | inlineCode => exact hmono v
    | inlineMath => exact hmono v
    | _ => exact inEssence_pure rfl
  | foreign k v name =>
    refine InEssence.bind (f := id) ?_ fun _ => inEssence_pure rfl
    exact inEssence_modify (m := fun p => { p with log := p.log ++ [dropped k] }) (fun _ => rfl)
      fun _ => rfl
  | _ => exact inEssence_pure rfl

include hsize in
theorem wrap_essence (b : Branch) (content : String) :
    wrap o' content b.essence = wrap o content b := by
  cases b with
  | heading level => rw [Branch.essence, wrap, wrap, hsize]
  | container k => cases k <;> rfl
  | _ => rfl

theorem flows_essence (b : Branch) : flows b.essence = flows b := by
  cases b <;> rfl

theorem inEssence_visitEach : ∀ {ns : List Node},
    (∀ n ∈ ns, InEssence o o' Rendered.essence (visit o n) (visit o' n.essence)) →
      InEssence o o' id (visitEach o ns) (visitEach o' (essenceEach ns))
  | [], _ => by
    rw [essenceEach, visitEach, visitEach]
    exact inEssence_pure rfl
  | n :: ns, h => by
    rw [List.forall_mem_cons] at h
    rw [essenceEach, visitEach, visitEach]
    refine h.1.bind fun r => InEssence.bind (f := id) (inEssence_modify (fun p => ?_) fun p => ?_)
      fun _ => (inEssence_visitEach h.2).bind fun _ => inEssence_pure rfl
    · exact congrArg (fun s => (⟨s, p.log⟩ : Pass)) (State.essence_apply p.state r.effect).symm
    · rcases r with ⟨text, _ | ⟨d⟩ | ⟨f⟩ | ⟨cells⟩ | ⟨text'⟩⟩ <;> simp [place, Effect.apply]

theorem inEssence_of_each {ns : List Node}
    (h : ∀ n ∈ ns, InEssence o o' Rendered.essence (visit o n) (visit o' n.essence)) :
    InEssence o o' id (renderChildren o ns) (renderChildren o' (essenceEach ns)) := by
  rw [renderChildren, renderChildren]
  exact (inEssence_visitEach h).bind inEssence_join

include hsize

/-- **The visit of the essence of a node** is its visit in essence. -/
theorem inEssence_visit (n : Node) :
    InEssence o o' Rendered.essence (visit o n) (visit o' n.essence) := by
  induction n using Node.induct with
  | leaf l loc =>
    rw [Node.essence, visit, visit]
    exact inEssence_leaf l
  | branch b ns loc ih =>
    have hw := inEssence_of_each ih
    rw [Node.essence]
    by_cases hf : flows b = true
    · rw [visit_of_flows hf, visit_of_flows ((flows_essence b).trans hf)]
      exact hw.bind fun text => inEssence_pure (by rw [wrap_essence hsize]; rfl)
    · cases b with
      | table align =>
        rw [Branch.essence, visit, visit]
        exact (inEssence_isolated rfl (.inr rfl) hw).bind fun r => inEssence_pure rfl
      | footnoteDefinition identifier label =>
        rw [Branch.essence, visit, visit]
        exact inEssence_pure rfl
      | container k =>
        cases k with
        | tableRow =>
          rw [Branch.essence, visit, visit]
          refine inEssence_get fun p _ => ?_
          rw [show p.essence.state.table = p.state.table from rfl]
          split_ifs
          · exact inEssence_pure rfl
          · exact (inEssence_isolated rfl (.inr rfl) hw).bind fun r => inEssence_pure rfl
        | tableCell =>
          rw [Branch.essence, visit, visit]
          refine inEssence_get fun p _ => ?_
          rw [show p.essence.state.row = p.state.row from rfl]
          split_ifs
          · exact inEssence_pure rfl
          · exact hw.bind fun text => inEssence_pure rfl
        | _ => exact absurd rfl hf
      | _ => exact absurd rfl hf

/-- **The walk over the essence of siblings** is the walk over them in essence. -/
theorem inEssence_renderChildren (ns : List Node) :
    InEssence o o' id (renderChildren o ns) (renderChildren o' (essenceEach ns)) :=
  inEssence_of_each fun n _ => inEssence_visit hsize n

end Nodes

/-! ### Pages -/

section Pages
variable {o : PageOptions}

/-- The loop over the footnotes: the essence of the queue is worked off in the same rounds. -/
theorem inEssence_footnoteLines : ∀ fuel index : Nat,
    InEssence o o id (footnoteLines o index fuel) (footnoteLines o index fuel)
  | 0, _ => inEssence_pure rfl
  | fuel + 1, index => by
    rw [footnoteLines]
    refine inEssence_get fun p _ => ?_
    rw [show p.essence.state.footnotes[index]? = (p.state.footnotes[index]?).map Footnote.essence from
      List.getElem?_map]
    cases p.state.footnotes[index]? with
    | none => exact inEssence_pure rfl
    | some f =>
      exact (inEssence_renderChildren rfl f.children).bind fun _ =>
        (inEssence_footnoteLines fuel (index + 1)).bind fun _ => inEssence_pure rfl

theorem inEssence_assemble (ns : List Node) :
    InEssence o o id (assemble o ns) (assemble o (essenceEach ns)) := by
  rw [assemble, assemble, sizes_essenceEach]
  refine (inEssence_renderChildren rfl ns).bind fun body => (inEssence_footnoteLines _ _).bind
    fun lines => inEssence_get fun p _ => inEssence_pure ?_
  have hlines : p.essence.state.definitions.map definitionLine =
      p.state.definitions.map definitionLine := List.map_map
  rw [hlines]
  rfl

/-- **The page of the essence of a tree** is its page. -/
theorem render_essence (n : Node) (log : List Record) : render o n.essence log = render o n log := by
  cases n with
  | leaf l loc =>
    rw [Node.essence, render, render]
    cases l <;> rfl
  | branch b ns loc =>
    cases ns with
    | nil => rfl
    | cons n ns =>
      have ha := (inEssence_assemble (o := o) (n :: ns) { log := log } (.inl rfl)).1
      rw [Node.essence]
      unfold render
      rw [essenceEach] at ha ⊢
      dsimp only
      rw [show ({ log := log } : Pass).essence = { log := log } from rfl] at ha
      rw [ha]
      rcases assemble o (n :: ns) { log := log } with ⟨e | page, p⟩ <;> rfl

/-- **Trees with the same essence have the same page**, or fail alike, and the same records. -/
theorem same_essence_same_page (o : PageOptions) {m n : Node} (h : m.essence = n.essence)
    (log : List Record) : render o m log = render o n log := by
  rw [← render_essence m, h, render_essence]

end Pages

/-- The content of a footnote with a label, a construct that is dropped and places. -/
def variedNote (s : String) (loc : Option Mdast.Location) : List Node :=
  [.leaf (.imageReference (.str "d") (.str "a") (.str s)) loc,
    .leaf (.foreign .textElement .null (.str s)) loc]

/-- The children of a root, with a bit of everything that no page shows. -/
def varied (level start : Value) (s : String) (loc : Option Mdast.Location) : List Node :=
  [.branch (.heading level) [.leaf (.image (.str "u") (.str s) (.str s)) loc] loc,
    .branch (.table (.list [.str s])) [.container .tableRow [.container .tableCell [.text "c"]]] loc,
    .branch (.list (.bool false) start) [.branch (.link (.str "u") (.str s))
      [.leaf (.definition ⟨.str "d", .str "u", .str "t", .str s⟩) loc] loc] loc,
    .branch (.footnoteDefinition (.str "n") (.str s)) (variedNote s loc) loc]

/-- A tree with a bit of everything that no page shows. -/
def variedTree (level start : Value) (s : String) (loc : Option Mdast.Location) : Node :=
  .branch (.container .root) (varied level start s loc) loc

theorem same_essence_same_page_varied :
    (variedTree (.int 1) (.int 3) "x" none).essence =
      (variedTree (.int 6) .null "[font" (some ⟨.int 2, .int 1⟩)).essence ∧
    render {} (variedTree (.int 1) (.int 3) "x" none) [] =
      render {} (variedTree (.int 6) .null "[font" (some ⟨.int 2, .int 1⟩)) [] ∧
    render {} (variedTree (.int 6) .null "[font" (some ⟨.int 2, .int 1⟩)) [] =
      (.ok ("[size=5][img]u[/img][/size]\n\n[code]+---+\n| c |\n+---+\n[/code]\n\n[list]\n" ++
        "[url=u][/url][/list]\n^d: [url=u]t[/url]\n^n: [d] a"), [dropped .textElement]) := by
  have h : (variedTree (.int 1) (.int 3) "x" none).essence =
      (variedTree (.int 6) .null "[font" (some ⟨.int 2, .int 1⟩)).essence := rfl
  have ha : assemble {} (varied (.int 6) .null "[font" (some ⟨.int 2, .int 1⟩)) {} =
      (.ok ("\n[size=5][img]u[/img][/size]\n\n[code]+---+\n| c |\n+---+\n[/code]\n\n[list]\n" ++
        "[url=u][/url][/list]\n^d: [url=u]t[/url]\n^n: [d] a"),
        { state :=
            { definitions := [⟨.str "d", .str "u", .str "t", .str "[font"⟩]
              footnotes := [⟨.str "n", .str "[font", variedNote "[font" (some ⟨.int 2, .int 1⟩)⟩] }
          log := [dropped .textElement] }) := by
    cbv
  refine ⟨h, same_essence_same_page {} h [], (render_root _ _ []).trans ?_⟩
  rw [ha]
  cbv

end Bulletin.Proofs.Page.Essence
