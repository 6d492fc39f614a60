import Bulletin.Proofs.Page.Walk
import Mathlib.Algebra.Order.BigOperators.Group.List
import Mathlib.Algebra.Ring.Nat

/-! # The footnotes of a page

A walk outside of tables meets nodes in document order, but it does not go into tables, into rows
and cells without a table, nor into footnotes (`met`). The definitions and footnotes among the nodes
that it meets are captured. The captured footnotes form a queue: the walk over one of them may
append others, so that in the end they stand in breadth-first order.

* `breadthFirst`: the order, as a queue that is worked off; `breadthFirst_eq`: what each footnote of
  it appends comes after all that was in the queue before, in the order of the queue.
* `lt_queue_iff`: the queue lasts for as many rounds as the order has footnotes.
* `footnoteLines_eq`: a number of rounds of the loop treats as many footnotes of that order. -/

namespace Bulletin.Proofs.Page.Queue

open Bulletin.Page
open Bulletin.Mdast (Node Leaf Branch)
open Bulletin.Proofs.Page.Walk
open Runs (bind_ok get_bind)
open scoped List

/-! ### What a walk meets -/

mutual

/-- The nodes that a walk outside of tables meets in a tree, in document order. -/
def met : Node → List Node
  | .leaf l p => [.leaf l p]
  | .branch b ns p => .branch b ns p :: if flows b then metEach ns else []

/-- The nodes that a walk outside of tables meets among siblings. -/
def metEach : List Node → List Node
  | [] => []
  | n :: ns => met n ++ metEach ns

end

/-- The footnote that a node stands for, if it does. -/
def footnote? : Node → Option Footnote
  | .branch (.footnoteDefinition identifier label) ns _ => some ⟨identifier, label, ns⟩
  | _ => none

/-- The link definition that a node stands for, if it does. -/
def definition? : Node → Option Mdast.Definition
  | .leaf (.definition d) _ => some d
  | _ => none

theorem footnote?_of_flows {b : Branch} {ns : List Node} {p : Option Mdast.Location}
    (h : flows b = true) : footnote? (.branch b ns p) = none := by
  cases b <;> first | exact Bool.noConfusion h | rfl

theorem eq_of_footnote? {n : Node} {f : Footnote} (h : footnote? n = some f) :
    ∃ p, n = .branch (.footnoteDefinition f.identifier f.label) f.children p := by
  cases n with
  | leaf l p => cases h
  | branch b ns p => cases b <;> cases h; exact ⟨p, rfl⟩

theorem eq_of_definition? {n : Node} {d : Mdast.Definition} (h : definition? n = some d) :
    ∃ p, n = .leaf (.definition d) p := by
  cases n with
  | leaf l p => cases l <;> cases h; exact ⟨p, rfl⟩
  | branch b ns p => cases h

/-- **The footnotes that a walk outside of tables meets.** -/
def footnotesMet (ns : List Node) : List Footnote := (metEach ns).filterMap footnote?

/-- **The link definitions that a walk outside of tables meets.** -/
def definitionsMet (ns : List Node) : List Mdast.Definition := (metEach ns).filterMap definition?

theorem mem_metEach {m : Node} : ∀ {ns : List Node}, m ∈ metEach ns ↔ ∃ n ∈ ns, m ∈ met n
  | [] => by simp [metEach]
  | n :: ns => by simp [metEach, mem_metEach]

theorem metEach_eq_flatMap : ∀ ns : List Node, metEach ns = ns.flatMap met
  | [] => rfl
  | n :: ns => by rw [metEach, metEach_eq_flatMap ns, List.flatMap_cons]

theorem metEach_append : ∀ ms ns : List Node, metEach (ms ++ ns) = metEach ms ++ metEach ns
  | [], ns => rfl
  | m :: ms, ns => by rw [List.cons_append, metEach, metEach, metEach_append ms ns, List.append_assoc]

theorem metEach_flatMap {α : Type} (f : α → List Node) :
    ∀ l : List α, metEach (l.flatMap f) = l.flatMap fun a => metEach (f a)
  | [] => rfl
  | a :: l => by rw [List.flatMap_cons, metEach_append, metEach_flatMap f l, List.flatMap_cons]

theorem footnotesMet_append_flatMap {α : Type} (ns : List Node) (f : α → List Node) (l : List α) :
    footnotesMet (ns ++ l.flatMap f) = footnotesMet ns ++ l.flatMap fun a => footnotesMet (f a) := by
  simp only [footnotesMet, metEach_append, metEach_flatMap, List.filterMap_append,
    List.filterMap_flatMap]

theorem definitionsMet_append_flatMap {α : Type} (ns : List Node) (f : α → List Node) (l : List α) :
    definitionsMet (ns ++ l.flatMap f) =
      definitionsMet ns ++ l.flatMap fun a => definitionsMet (f a) := by
  simp only [definitionsMet, metEach_append, metEach_flatMap, List.filterMap_append,
    List.filterMap_flatMap]

section Captured
variable {o : PageOptions}

theorem captured_of_each : ∀ {ns : List Node},
    (∀ n ∈ ns, (yieldOf o {} n).footnotes = (met n).filterMap footnote? ∧
      (yieldOf o {} n).definitions = (met n).filterMap definition?) →
    (yields o {} ns).footnotes = footnotesMet ns ∧ (yields o {} ns).definitions = definitionsMet ns
  | [], _ => by rw [yields]; exact ⟨rfl, rfl⟩
  | n :: ns, h => by
    obtain ⟨h1, h2⟩ := h n (by simp)
    obtain ⟨h3, h4⟩ := captured_of_each fun m hm => h m (List.mem_cons_of_mem n hm)
    rw [yields]
    simp only [footnotesMet, definitionsMet, metEach, List.filterMap_append, append_footnotes,
      append_definitions, h1, h2, h3, h4, and_self]

theorem captured (n : Node) : (yieldOf o {} n).footnotes = (met n).filterMap footnote? ∧
    (yieldOf o {} n).definitions = (met n).filterMap definition? := by
  induction n using Node.induct with
  | leaf l p => rw [yieldOf, met]; cases l <;> exact ⟨rfl, rfl⟩
  | branch b ns p ih =>
    rw [met]
    by_cases hf : flows b = true
    · obtain ⟨h1, h2⟩ := captured_of_each ih
      rw [yieldOf_of_flows hf, if_pos hf, List.filterMap_cons_none (footnote?_of_flows hf),
        List.filterMap_cons_none rfl]
      exact ⟨h1, h2⟩
    · rw [if_neg hf, yieldOf.eq_def]
      cases b with
      | container k => cases k <;> first | exact absurd rfl hf | exact ⟨rfl, rfl⟩
      | table _ => exact ⟨rfl, rfl⟩
      | footnoteDefinition _ _ => exact ⟨rfl, rfl⟩
      | _ => exact absurd rfl hf

/-- **What a walk captures** is what it meets. -/
theorem yields_captured (ns : List Node) :
    (yields o {} ns).footnotes = footnotesMet ns ∧ (yields o {} ns).definitions = definitionsMet ns :=
  captured_of_each fun n _ => captured n

end Captured

/-! ### The queue -/

/-- The number of nodes that a footnote brings with it. -/
def weight (f : Footnote) : ℕ := 1 + Node.sizes f.children

/-- The number of nodes that some footnotes bring with them. -/
def load (q : List Footnote) : ℕ := (q.map weight).sum

theorem load_append (q r : List Footnote) : load (q ++ r) = load q + load r := by
  simp [load]

theorem load_met_of_each : ∀ {ns : List Node},
    (∀ n ∈ ns, load ((met n).filterMap footnote?) ≤ n.size) → load (footnotesMet ns) ≤ Node.sizes ns
  | [], _ => Nat.le_refl 0
  | n :: ns, h => by
    have h1 := h n (by simp)
    have h2 := load_met_of_each fun m hm => h m (List.mem_cons_of_mem n hm)
    rw [footnotesMet] at h2 ⊢
    rw [metEach, List.filterMap_append, load_append, Node.sizes]
    omega

theorem load_met (n : Node) : load ((met n).filterMap footnote?) ≤ n.size := by
  induction n using Node.induct with
  | leaf l p => rw [met]; exact Nat.zero_le _
  | branch b ns p ih =>
    have h := load_met_of_each ih
    rw [footnotesMet] at h
    rw [met, Node.size]
    by_cases hf : flows b = true
    · rw [if_pos hf, List.filterMap_cons_none (footnote?_of_flows hf)]
      omega
    · rw [if_neg hf]
      cases b with
      | footnoteDefinition identifier label => exact Nat.le_refl _
      | _ => exact Nat.zero_le _

theorem load_footnotesMet (ns : List Node) : load (footnotesMet ns) ≤ Node.sizes ns :=
  load_met_of_each fun n _ => load_met n

theorem load_next (f : Footnote) (q : List Footnote) :
    load (q ++ footnotesMet f.children) < load (f :: q) := by
  have h := load_footnotesMet f.children
  rw [load_append]
  simp only [load, List.map_cons, List.sum_cons, weight] at h ⊢
  omega

/-- **The breadth-first order** of the footnotes that come of a queue: its first footnote, and then
the order of the others with those met in the first at the end. -/
def breadthFirst : List Footnote → List Footnote
  | [] => []
  | f :: q => f :: breadthFirst (q ++ footnotesMet f.children)
termination_by q => load q
decreasing_by exact load_next f q

/-- What is met in the footnotes of the order is appended to the queue in that order. -/
theorem breadthFirst_eq (q : List Footnote) :
    breadthFirst q = q ++ (breadthFirst q).flatMap fun f => footnotesMet f.children := by
  fun_induction breadthFirst q with
  | case1 => rfl
  | case2 f q ih =>
    rw [List.flatMap_cons, List.cons_append, ← List.append_assoc, ← ih]

theorem length_breadthFirst_le (q : List Footnote) : (breadthFirst q).length ≤ load q := by
  fun_induction breadthFirst q with
  | case1 => exact Nat.zero_le _
  | case2 f q ih =>
    have := load_next f q
    rw [List.length_cons]
    omega

/-- **The queue lasts** for one more round after `k` rounds if and only if its order has more than
`k` footnotes. -/
theorem lt_queue_iff (q : List Footnote) (k : ℕ) :
    k < (q ++ ((breadthFirst q).take k).flatMap fun f => footnotesMet f.children).length ↔
      k < (breadthFirst q).length := by
  fun_induction breadthFirst q generalizing k with
  | case1 => simp
  | case2 f q ih =>
    cases k with
    | zero => simp
    | succ k =>
      have h := ih k
      rw [List.append_assoc] at h
      rw [List.take_succ_cons, List.flatMap_cons, List.cons_append, List.length_cons,
        List.length_cons, Nat.succ_lt_succ_iff, Nat.succ_lt_succ_iff]
      exact h

/-! ### What belongs to the footnotes of a queue -/

section Belongings
variable {α : Type} {C : Footnote → Prop} {own all : Footnote → List α}

/-- What a footnote passes on to those met in it holds of the whole order. -/
theorem forall_breadthFirst (hC : ∀ f, C f → ∀ g ∈ footnotesMet f.children, C g)
    (q : List Footnote) (h : ∀ f ∈ q, C f) : ∀ f ∈ breadthFirst q, C f := by
  fun_induction breadthFirst q with
  | case1 => exact h
  | case2 f q ih =>
    rw [List.forall_mem_cons] at h ⊢
    exact ⟨h.1, ih (List.forall_mem_append.2 ⟨h.2, hC f h.1⟩)⟩

theorem perm_siblings {own' all' : Node → List α} : ∀ {ns : List Node},
    (∀ n ∈ ns, all' n ~ own' n ++ ((met n).filterMap footnote?).flatMap all) →
      ns.flatMap all' ~ ns.flatMap own' ++ (footnotesMet ns).flatMap all
  | [], _ => List.Perm.refl _
  | n :: ns, h => by
    rw [List.forall_mem_cons] at h
    have ih := perm_siblings h.2
    rw [footnotesMet] at ih
    rw [List.flatMap_cons, List.flatMap_cons, footnotesMet, metEach, List.filterMap_append,
      List.flatMap_append]
    set a := ((met n).filterMap footnote?).flatMap all
    set b := ((metEach ns).filterMap footnote?).flatMap all
    calc all' n ++ ns.flatMap all'
      _ ~ (own' n ++ a) ++ (ns.flatMap own' ++ b) := h.1.append ih
      _ = own' n ++ (a ++ ns.flatMap own') ++ b := by simp only [List.append_assoc]
      _ ~ own' n ++ (ns.flatMap own' ++ a) ++ b :=
        (List.perm_append_comm.append_left _).append_right _
      _ = own' n ++ ns.flatMap own' ++ (a ++ b) := by simp only [List.append_assoc]

/-- **What belongs to the footnotes of a queue**, to each its own and all that belongs to those met in
it, is what the footnotes of the order have of their own. -/
theorem perm_breadthFirst (hC : ∀ f, C f → ∀ g ∈ footnotesMet f.children, C g)
    (hall : ∀ f, C f → all f ~ own f ++ (footnotesMet f.children).flatMap all)
    (q : List Footnote) (h : ∀ f ∈ q, C f) : q.flatMap all ~ (breadthFirst q).flatMap own := by
  fun_induction breadthFirst q with
  | case1 => exact List.Perm.refl _
  | case2 f q ih =>
    rw [List.forall_mem_cons] at h
    have ih := ih (List.forall_mem_append.2 ⟨h.2, hC f h.1⟩)
    rw [List.flatMap_append] at ih
    calc (f :: q).flatMap all
      _ = all f ++ q.flatMap all := List.flatMap_cons
      _ ~ own f ++ (footnotesMet f.children).flatMap all ++ q.flatMap all :=
        (hall f h.1).append_right _
      _ = own f ++ ((footnotesMet f.children).flatMap all ++ q.flatMap all) :=
        List.append_assoc ..
      _ ~ own f ++ (q.flatMap all ++ (footnotesMet f.children).flatMap all) :=
        List.perm_append_comm.append_left _
      _ ~ own f ++ (breadthFirst (q ++ footnotesMet f.children)).flatMap own := ih.append_left _
      _ = (f :: breadthFirst (q ++ footnotesMet f.children)).flatMap own := List.flatMap_cons.symm

end Belongings

/-! ### The rounds of the loop -/

/-- The text of siblings outside of tables. -/
def pageText (o : PageOptions) (ns : List Node) : String :=
  (renderChildren o ns {}).1.toOption.getD ""

/-- The records of the walk over siblings outside of tables. -/
def pageLog (o : PageOptions) (ns : List Node) : List Record := (renderChildren o ns {}).2.log

/-- The line of a footnote. -/
def noteLine (o : PageOptions) (f : Footnote) : String :=
  "\n^" ++ f.identifier.display ++ ": " ++ Text.strip (pageText o f.children)

/-- Siblings that are textual. -/
def TextualEach (ns : List Node) : Prop := ∀ n ∈ ns, n.Textual

instance (ns : List Node) : Decidable (TextualEach ns) := by
  unfold TextualEach; infer_instance

section Rounds
variable {o : PageOptions} {ns : List Node}

theorem pageText_eq (h : FitsEach {} ns) : pageText o ns = (yields o {} ns).text := by
  rw [pageText, renderChildren_of_fits (p := {}) h]; rfl

theorem pageLog_eq (h : FitsEach {} ns) : pageLog o ns = (yields o {} ns).log := by
  rw [pageLog, renderChildren_of_fits (p := {}) h]; rfl

theorem TextualEach.fits (h : TextualEach ns) : FitsEach {} ns :=
  fitsEach_iff.2 fun n hn => fits_of_textual n (h n hn) {}

theorem textual_of_met : ∀ {ns : List Node} (_ : ∀ n ∈ ns, n.Textual →
      ∀ f ∈ (met n).filterMap footnote?, TextualEach f.children) (_ : TextualEach ns),
    ∀ f ∈ footnotesMet ns, TextualEach f.children
  | [], _, _, f, hf => by simp [footnotesMet, metEach] at hf
  | n :: ns, h, ht, f, hf => by
    rw [footnotesMet, metEach, List.filterMap_append, List.mem_append] at hf
    rcases hf with hf | hf
    · exact h n (by simp) (ht n (by simp)) f hf
    · exact textual_of_met (fun m hm => h m (List.mem_cons_of_mem n hm))
        (fun m hm => ht m (List.mem_cons_of_mem n hm)) f hf

theorem textual_footnotes (n : Node) :
    n.Textual → ∀ f ∈ (met n).filterMap footnote?, TextualEach f.children := by
  induction n using Node.induct with
  | leaf l p => intro _ f hf; simp [met, footnote?] at hf
  | branch b ns p ih =>
    intro h f hf
    rw [Node.textual_branch] at h
    rw [met, List.filterMap_cons] at hf
    by_cases hb : flows b = true
    · rw [if_pos hb, footnote?_of_flows hb] at hf
      exact textual_of_met ih h f hf
    · rw [if_neg hb] at hf
      cases b with
      | footnoteDefinition identifier label =>
        simp only [footnote?, List.filterMap_nil, List.mem_singleton] at hf
        rw [hf]; exact h
      | _ => simp [footnote?] at hf

theorem textual_footnotesMet (h : TextualEach ns) : ∀ f ∈ footnotesMet ns, TextualEach f.children :=
  textual_of_met (fun n _ => textual_footnotes n) h

theorem textual_breadthFirst (q : List Footnote) (h : ∀ f ∈ q, TextualEach f.children) :
    ∀ f ∈ breadthFirst q, TextualEach f.children :=
  forall_breadthFirst (C := fun f => TextualEach f.children) (fun _ hf => textual_footnotesMet hf) q h

/-- **The rounds of the loop**: `fuel` of them treat as many footnotes of the breadth-first order of
what is in the queue, each once. -/
theorem footnoteLines_eq : ∀ (fuel index : ℕ) (p : Pass), place p.state = {} →
    (∀ f ∈ (breadthFirst (p.state.footnotes.drop index)).take fuel, FitsEach {} f.children) →
    footnoteLines o index fuel p =
      (.ok (((breadthFirst (p.state.footnotes.drop index)).take fuel).map (noteLine o)),
        add p (yields o {}
          (((breadthFirst (p.state.footnotes.drop index)).take fuel).flatMap (·.children))))
  | 0, index, p, _, _ => by
    rw [List.take_zero, List.flatMap_nil, yields, add_nothing]; rfl
  | fuel + 1, index, p, hp, hfit => by
    rw [footnoteLines, get_bind]
    rcases Nat.lt_or_ge index p.state.footnotes.length with hi | hi
    · set f := p.state.footnotes[index] with hf
      have hdrop : p.state.footnotes.drop index = f :: p.state.footnotes.drop (index + 1) :=
        List.drop_eq_getElem_cons hi
      rw [hdrop, breadthFirst, List.take_succ_cons, List.forall_mem_cons] at hfit
      have hwalk := renderChildren_of_fits (o := o) (p := p) (hp.symm ▸ hfit.1)
      rw [hp] at hwalk
      set q := add p (yields o {} f.children) with hq
      have hqf : q.state.footnotes.drop (index + 1) =
          p.state.footnotes.drop (index + 1) ++ footnotesMet f.children := by
        rw [← (yields_captured (o := o) f.children).1]
        exact List.drop_append_of_le_length hi
      have hrest := footnoteLines_eq fuel (index + 1) q (by rw [hq, add, place_addState, hp])
        (by rw [hqf]; exact hfit.2)
      rw [hqf] at hrest
      rw [hdrop, breadthFirst, List.take_succ_cons, List.map_cons, List.flatMap_cons,
        List.getElem?_eq_getElem hi, ← hf, yields_append, ← add_add, ← hq]
      rw [noteLine, pageText_eq hfit.1]
      exact (bind_ok hwalk).trans ((bind_ok hrest).trans rfl)
    · rw [List.drop_eq_nil_of_le hi, List.getElem?_eq_none hi, breadthFirst, List.take_nil,
        List.flatMap_nil, yields, add_nothing]
      rfl

end Rounds

end Bulletin.Proofs.Page.Queue
