import Bulletin.Proofs.Page.Walk

/-! # The steps of a walk

Every walk over a tree is put together from a few steps: it looks at the state, it reports, an effect
is applied, a walk runs in a state of its own, texts are joined. A property of walks that these steps
have and that is kept in sequences is a property of all of them (`Steps`). The walk over a whole page
looks at what is captured, too (`PageSteps`).

* `Steps.renderChildren`: such a property holds of the walk over siblings.
* `PageSteps.assemble`: it holds of the walk over a whole page.
* `onlyNotText`: a walk fails with no other fault than a value that is no text.
* `blind`: what a walk gives does not depend on the records before it. -/

namespace Bulletin.Proofs.Page

open Bulletin.Page
open Bulletin.Mdast (Node Leaf Branch)
open Walk (Place place flows visit_of_flows isolated_ok)
open Runs (bind_ok bind_error bind_eq_error)

/-- **A property that the steps of a walk have**, and that sequences keep. Of its state a walk looks
at the place alone. -/
structure Steps (P : (α : Type) → Walk α → Prop) : Prop where
  pure {α : Type} (a : α) : P α (pure a)
  bind {α β : Type} {w : Walk α} {f : α → Walk β} : P α w → (∀ a, P β (f a)) → P β (w >>= f)
  look {α : Type} {f : Pass → Walk α} : (∀ p q, place p.state = place q.state → f p = f q) →
    (∀ p, P α (f p)) → P α (get >>= f)
  report (r : Record) : P Unit (modify fun p => { p with log := p.log ++ [r] })
  apply (e : Option Effect) :
    P Unit (modify fun p => { p with state := e.elim p.state (·.apply p.state) })
  isolated {α : Type} {w : Walk α} (s : State) : P α w → P (α × State) (isolated s w)
  join (vs : List Value) : P String (ExceptT.mk (Pure.pure (joinTexts 0 vs)))

/-- A property that the steps of the walk over a whole page have, which looks at its whole state. -/
structure PageSteps (P : (α : Type) → Walk α → Prop) : Prop extends Steps P where
  consult {α : Type} {f : Pass → Walk α} : (∀ s log log', f ⟨s, log⟩ = f ⟨s, log'⟩) →
    (∀ p, P α (f p)) → P α (get >>= f)

theorem inTable_eq (s : State) : s.inTable = ((place s).table || (place s).row) := rfl

theorem isNone_table_eq (s : State) : s.table.isNone = !(place s).table := by
  rw [place, Option.not_isSome]

theorem isNone_row_eq (s : State) : s.row.isNone = !(place s).row := by
  rw [place, Option.not_isSome]

namespace Steps

variable {P : (α : Type) → Walk α → Prop} {o : PageOptions} {ns : List Node} (hP : Steps P)
include hP

theorem visitLeaf (l : Leaf) : P _ (visitLeaf o l) := by
  cases l with
  | literal k v =>
    have hmono : P _ (monospace o v) :=
      hP.look (fun p q h => by rw [inTable_eq, inTable_eq, h]) fun p => by
        split_ifs <;> exact hP.pure _
    cases k with
    | inlineCode => exact hmono
    | inlineMath => exact hmono
    | _ => exact hP.pure _
  | foreign k v name => exact hP.bind (hP.report _) fun _ => hP.pure _
  | _ => exact hP.pure _

theorem visitEach : ∀ {ns : List Node}, (∀ n ∈ ns, P _ (visit o n)) → P _ (visitEach o ns)
  | [], _ => by
    rw [Page.visitEach]
    exact hP.pure _
  | n :: ns, h => by
    rw [Page.visitEach]
    refine hP.bind (h n List.mem_cons_self) fun r => hP.bind (hP.apply _) fun _ => ?_
    exact hP.bind (visitEach fun m hm => h m (List.mem_cons_of_mem n hm)) fun _ => hP.pure _

theorem renderChildren_of_each (h : ∀ n ∈ ns, P _ (visit o n)) : P _ (renderChildren o ns) := by
  rw [Page.renderChildren]
  exact hP.bind (hP.visitEach h) fun vs => hP.join vs

/-- **The property holds of the visit of every node.** -/
theorem visit (n : Node) : P _ (visit o n) := by
  induction n using Node.induct with
  | leaf l loc =>
    rw [Page.visit]
    exact hP.visitLeaf l
  | branch b ns loc ih =>
    have hw : P _ (renderChildren o ns) := hP.renderChildren_of_each ih
    by_cases hf : flows b = true
    · rw [visit_of_flows hf]
      exact hP.bind hw fun _ => hP.pure _
    · cases b with
      | table align =>
        rw [Page.visit]
        exact hP.bind (hP.isolated _ hw) fun _ => hP.pure _
      | footnoteDefinition identifier label =>
        rw [Page.visit]
        exact hP.pure _
      | container k =>
        cases k with
        | tableRow =>
          rw [Page.visit]
          refine hP.look (fun p q h => by rw [isNone_table_eq, isNone_table_eq, h]) fun p => ?_
          split_ifs
          · exact hP.pure _
          · exact hP.bind (hP.isolated _ hw) fun _ => hP.pure _
        | tableCell =>
          rw [Page.visit]
          refine hP.look (fun p q h => by rw [isNone_row_eq, isNone_row_eq, h]) fun p => ?_
          split_ifs
          · exact hP.pure _
          · exact hP.bind hw fun _ => hP.pure _
        | _ => exact absurd rfl hf
      | _ => exact absurd rfl hf

/-- **The property holds of the walk over siblings.** -/
theorem renderChildren (ns : List Node) : P _ (renderChildren o ns) :=
  hP.renderChildren_of_each fun n _ => hP.visit n

end Steps

namespace PageSteps

variable {P : (α : Type) → Walk α → Prop} {o : PageOptions} (hP : PageSteps P)
include hP

theorem footnoteLines : ∀ fuel index : Nat, P _ (footnoteLines o index fuel)
  | 0, index => hP.pure _
  | fuel + 1, index => by
    rw [Page.footnoteLines]
    refine hP.consult (fun _ _ _ => rfl) fun p => ?_
    cases p.state.footnotes[index]? with
    | none => exact hP.pure _
    | some f =>
      refine hP.bind (hP.renderChildren _) fun _ => ?_
      exact hP.bind (footnoteLines fuel (index + 1)) fun _ => hP.pure _

/-- **The property holds of the walk over a whole page.** -/
theorem assemble (ns : List Node) : P _ (assemble o ns) := by
  refine hP.bind (hP.renderChildren ns) fun _ => hP.bind (hP.footnoteLines _ _) fun _ => ?_
  exact hP.consult (fun _ _ _ => rfl) fun _ => hP.pure _

end PageSteps

/-! ### How a walk fails -/

/-- A walk that fails with no other fault than a value that is no text. -/
def OnlyNotText (α : Type) (w : Walk α) : Prop :=
  ∀ (p q : Pass) (e : Fault), w p = (.error e, q) → ∃ i t, e = .notText i t

theorem notText_of_joinTexts : ∀ {vs : List Value} {i : Nat} {e : Fault},
    joinTexts i vs = .error e → ∃ i t, e = .notText i t
  | [], _, _, h => by cases h
  | v :: vs, i, e, h => by
    cases v with
    | str t =>
      rw [joinTexts] at h
      cases hr : joinTexts (i + 1) vs with
      | ok r => rw [hr] at h; cases h
      | error e' =>
        rw [hr] at h
        cases h
        exact notText_of_joinTexts hr
    | _ => exact ⟨i, _, (Except.error.inj h).symm⟩

theorem isolated_error {α : Type} {s : State} {w : Walk α} {p q : Pass} {e : Fault}
    (h : w { p with state := s } = (.error e, q)) :
    isolated s w p = (.error e, { q with state := p.state }) := by
  unfold isolated
  rw [h]
  rfl

/-- **Every walk fails with a value that is no text**, if it fails. -/
theorem onlyNotText : PageSteps OnlyNotText where
  pure a p q e h := by cases h
  bind hw hf p q e h := by
    rcases bind_eq_error.1 h with h | ⟨a, p₁, -, h⟩
    · exact hw p q e h
    · exact hf a p₁ q e h
  look hs hf p q e h := hf p p q e h
  consult hs hf p q e h := hf p p q e h
  report r p q e h := by cases h
  apply f p q e h := by cases h
  isolated {α w} s hw p q e h := by
    rcases hr : w { p with state := s } with ⟨e' | a, p₁⟩
    · rw [isolated_error hr] at h
      cases h
      exact hw _ _ e hr
    · rw [isolated_ok hr] at h
      cases h
  join vs p q e h := notText_of_joinTexts (Prod.ext_iff.1 h).1

/-! ### What a walk does not look at -/

/-- A walk whose result and state do not depend on the records before it. -/
def Blind (α : Type) (w : Walk α) : Prop :=
  ∀ (s : State) (log log' : List Record), (w ⟨s, log⟩).1 = (w ⟨s, log'⟩).1 ∧
    (w ⟨s, log⟩).2.state = (w ⟨s, log'⟩).2.state

theorem blind_get {α : Type} {f : Pass → Walk α} (hs : ∀ s log log', f ⟨s, log⟩ = f ⟨s, log'⟩)
    (hf : ∀ p, Blind α (f p)) : Blind α (get >>= f) := by
  intro s log log'
  have h := hf ⟨s, log⟩ s log log'
  refine ⟨h.1.trans ?_, h.2.trans ?_⟩
  · rw [hs s log log']
    rfl
  · rw [hs s log log']
    rfl

/-- **What a walk gives does not depend on the records before it.** -/
theorem blind : PageSteps Blind where
  pure a s log log' := ⟨rfl, rfl⟩
  bind {α β w f} hw hf s log log' := by
    obtain ⟨hr, hs⟩ := hw s log log'
    rcases hx : w ⟨s, log⟩ with ⟨e | a, p⟩ <;> rcases hy : w ⟨s, log'⟩ with ⟨e' | a', p'⟩
    all_goals rw [hx, hy] at hr hs
    · cases hr
      rw [bind_error hx, bind_error hy]
      exact ⟨rfl, hs⟩
    · cases hr
    · cases hr
    · cases hr
      rw [bind_ok hx, bind_ok hy]
      obtain ⟨t, l⟩ := p
      obtain ⟨t', l'⟩ := p'
      obtain rfl : t = t' := hs
      exact hf a t l l'
  look hs hf := blind_get (fun _ _ _ => hs _ _ rfl) hf
  consult := blind_get
  report r s log log' := ⟨rfl, rfl⟩
  apply f s log log' := ⟨rfl, rfl⟩
  isolated {α w} s hw t log log' := by
    obtain ⟨hr, hs⟩ := hw s log log'
    refine ⟨?_, rfl⟩
    show (w ⟨s, log⟩).1.map (fun a => (a, (w ⟨s, log⟩).2.state)) = _
    rw [hr, hs]
    rfl
  join vs s log log' := ⟨rfl, rfl⟩

end Bulletin.Proofs.Page
