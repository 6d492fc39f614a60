import Bulletin.Proofs.Markdown.Shape
import Bulletin.Proofs.Mdast.RoundTrip

/-! # What is kept of a tree that is written

A node is well typed if its fields hold what its class declares: texts, some of which may be missing,
whole numbers, and for a heading a level from 1 to 6. A well-typed tree is written unless one of its
nodes is of no known kind, and what is written is read again, strictly or leniently, as what is kept of
the tree (`kept`). This is the tree itself with one exception: an MDX element is written with its name
only, so that its source is lost.

* `readsAs_kept`: what is written is read as what is kept.
* `equals_kept_iff`: what is kept equals the tree just if no element loses its source.
* `written_reads_kept`: both, and the trees that cannot be written. -/

namespace Bulletin.Mdast

open Markdown.Handed (isTextOrNull leafIsFilled branchIsFilled eq_str_of_isText)
open Proofs Proofs.Mdast.RoundTrip

/-! ### Well-typed trees -/

/-- Whether a value is a whole number or null; true and false are whole numbers. -/
def isWholeOrNull (v : Value) : Bool := v.whole?.isSome || v.isNull

/-- Whether a leaf holds what its class declares. An MDX construct holds its source, and an element
may have a name besides. -/
def Leaf.isTyped : Leaf → Bool
  | .foreign k v name => v.isText && if k.isElement then isTextOrNull name else name.isNull
  | l => leafIsFilled l

/-- Whether a branch holds what its class declares. -/
def Branch.isTyped : Branch → Bool
  | .list (.bool _) start => isWholeOrNull start
  | .list .. => false
  | .table (.list align) => align.all isTextOrNull
  | .table _ => false
  | b => branchIsFilled b

/-- Whether a place holds numbers where it is known. -/
def placeIsTyped (p : Option Location) : Bool :=
  p.all fun l => isWholeOrNull l.line && isWholeOrNull l.column

/-- Whether a node holds what its class declares. -/
def Node.isTyped : Node → Bool
  | .leaf l p => l.isTyped && placeIsTyped p
  | .branch b _ p => b.isTyped && placeIsTyped p

/-- **A tree whose nodes all hold what their classes declare.** -/
def Node.WellTyped (n : Node) : Prop := n.All fun m => m.isTyped = true

/-- Whether the kind of a node is known, so that it can be written. -/
def Node.isNamed : Node → Bool
  | .leaf (.foreign k _ _) _ => k != .other
  | _ => true

/-- Whether a node is an MDX element with a source. -/
def Node.losesSource : Node → Bool
  | .leaf (.foreign k v _) _ => k.isElement && v.truthy
  | _ => false

instance (n : Node) : Decidable n.WellTyped := by
  unfold Node.WellTyped; infer_instance

/-! ### What is kept -/

/-- **What is kept of a leaf**: an MDX element without its source. -/
def Leaf.kept : Leaf → Leaf
  | .foreign k v name => .foreign k (if k.isElement then .str "" else v) name
  | l => l

/-- **What is kept of a branch**: a heading with its level as a number. -/
def Branch.kept : Branch → Branch
  | .heading level => .heading ((level.whole?.map Value.int).getD level)
  | b => b

mutual

/-- **What is kept of a tree**, node by node. -/
def Node.kept : Node → Node
  | .leaf l p => .leaf l.kept p
  | .branch b ns p => .branch b.kept (Node.keptEach ns) p

/-- What is kept of a row of trees. -/
def Node.keptEach : List Node → List Node
  | [] => []
  | n :: ns => n.kept :: Node.keptEach ns

end

section WellTyped
variable {l : Leaf} {b : Branch} {ns : List Node} {p : Option Location}

theorem wellTyped_leaf :
    (Node.leaf l p).WellTyped ↔ l.isTyped = true ∧ placeIsTyped p = true := by
  unfold Node.WellTyped; simp [Node.isTyped]

theorem wellTyped_branch : (Node.branch b ns p).WellTyped ↔
    (b.isTyped = true ∧ placeIsTyped p = true) ∧ ∀ n ∈ ns, n.WellTyped := by
  unfold Node.WellTyped; simp [Node.isTyped]

theorem forall₂_keptEach {R : Node → Node → Prop} : ∀ {ns : List Node}, (∀ n ∈ ns, R n n.kept) →
    List.Forall₂ R ns (Node.keptEach ns)
  | [], _ => .nil
  | n :: ns, h => by
    obtain ⟨hn, hns⟩ := List.forall_mem_cons.1 h
    exact .cons hn (forall₂_keptEach hns)

end WellTyped

/-! ### Reading what is written -/

section Reading
variable {l : Leaf} {b : Branch} {n : Node}

theorem orElse_of_isText {v : Value} (h : v.isText = true) : v.orElse (.str "") = v := by
  obtain ⟨s, rfl⟩ := eq_str_of_isText h
  by_cases hs : s = "" <;> simp [Value.orElse, Value.truthy, hs]

theorem level_of_isTyped {level : Value} (h : (Branch.heading level).isTyped = true) :
    ∃ n, level.whole? = some n ∧ 1 ≤ n ∧ n ≤ 6 := by
  obtain ⟨n, hn, hrange⟩ := (Option.any_eq_true _ _).1 h
  exact ⟨n, hn, by simpa using hrange⟩

/-- **A well-typed leaf of a known kind is read as what is kept of it.** -/
theorem leafReadsAs_kept (h : l.isTyped = true) {p : Option Location}
    (hn : (Node.leaf l p).isNamed = true) : LeafReadsAs l l.kept := by
  cases l with
  | foreign k v name =>
    refine readsAs_foreign (by simpa [Node.isNamed] using hn) fun he => ?_
    simp only [Leaf.isTyped, he, Bool.false_eq_true, if_false, Bool.and_eq_true] at h
    cases name <;> first | rfl | cases h.2
  | image | imageReference =>
    simp only [Leaf.isTyped, leafIsFilled, Bool.and_eq_true] at h
    exact readsAs_leaf_self (orElse_of_isText h.1.2)
  | _ => exact readsAs_leaf_self trivial

/-- **A well-typed branch is read as what is kept of it.** -/
theorem branchReadsAs_kept (h : b.isTyped = true) : BranchReadsAs b b.kept := by
  cases b with
  | heading level =>
    obtain ⟨n, hlevel, hn⟩ := level_of_isTyped h
    rw [Branch.kept, hlevel]
    exact readsAs_heading hlevel hn
  | list ordered start =>
    cases ordered with
    | bool b => exact readsAs_branch_self ⟨b, rfl⟩
    | _ => cases h
  | table align =>
    cases align with
    | list vs => exact readsAs_branch_self ⟨vs, rfl⟩
    | _ => cases h
  | _ => exact readsAs_branch_self trivial

/-- **A well-typed tree of known kinds is read as what is kept of it.** -/
theorem readsAs_kept (h : n.WellTyped) (hn : n.All fun m => m.isNamed = true) :
    ReadsAs n n.kept := by
  induction n using Node.induct with
  | leaf l p =>
    exact readsAs_leaf (leafReadsAs_kept (wellTyped_leaf.1 h).1 (Node.all_leaf.1 hn)) p
  | branch b ns p ih =>
    obtain ⟨⟨hb, -⟩, hns⟩ := wellTyped_branch.1 h
    have hnamed := (Node.all_branch.1 hn).2
    have hrow := forall₂_keptEach fun n hn => ih n hn (hns n hn) (hnamed n hn)
    exact readsAs_branch (branchReadsAs_kept hb) hrow p

/-! ### Trees that cannot be written -/

/-- A row of well-typed trees cannot be written if one of them cannot. -/
theorem toValues_noName : ∀ {ns : List Node}, (∀ n ∈ ns, n.WellTyped) →
    (∀ n ∈ ns, (¬ n.All fun m => m.isNamed = true) → n.toValue = .error .noName) →
    (∃ n ∈ ns, ¬ n.All fun m => m.isNamed = true) → Node.toValues ns = .error .noName
  | [], _, _, ⟨_, hmem, _⟩ => nomatch hmem
  | n :: ns, htyped, hfails, hsome => by
    obtain ⟨hn, hns⟩ := List.forall_mem_cons.1 htyped
    obtain ⟨hfail, hfails⟩ := List.forall_mem_cons.1 hfails
    rw [Node.toValues]
    by_cases hnamed : n.All fun m => m.isNamed = true
    · obtain ⟨v, hv, -⟩ := readsAs_kept hn hnamed
      have hrest : ∃ m ∈ ns, ¬ m.All fun m => m.isNamed = true := by
        simpa [hnamed] using hsome
      rw [hv, toValues_noName hns hfails hrest]
      rfl
    · rw [hfail hnamed]
      rfl

/-- **A well-typed tree with a node of no known kind cannot be written**, for this reason. -/
theorem toValue_noName (h : n.WellTyped) (hn : ¬ n.All fun m => m.isNamed = true) :
    n.toValue = .error .noName := by
  induction n using Node.induct with
  | leaf l p =>
    rw [Node.all_leaf] at hn
    cases l with
    | foreign k v name =>
      obtain rfl : k = .other := by simpa [Node.isNamed] using hn
      rfl
    | _ => exact absurd rfl hn
  | branch b ns p ih =>
    obtain ⟨⟨hb, -⟩, hns⟩ := wellTyped_branch.1 h
    obtain ⟨fields, -, -, hfields, -⟩ := branchReadsAs_kept hb
    have hsome : ∃ m ∈ ns, ¬ m.All fun m => m.isNamed = true := by
      by_contra hall
      push Not at hall
      exact hn (Node.all_branch.2 ⟨rfl, hall⟩)
    rw [Node.toValue, hfields, Runs.except_ok_bind,
      toValues_noName hns (fun m hm => ih m hm (hns m hm)) hsome]
    rfl

end Reading

/-! ### Equality -/

section Equality
variable {v w : Value} {l : Leaf} {b : Branch} {n : Node} {p : Option Location}

theorem equals_self_of_isText (h : v.isText = true) : v.equals v = true := by
  obtain ⟨s, rfl⟩ := eq_str_of_isText h
  simp [Value.equals, Value.equalsFlat]

theorem equals_self_of_isTextOrNull (h : isTextOrNull v = true) : v.equals v = true := by
  cases v <;> first | exact equals_self_of_isText rfl | rfl | cases h

theorem equals_of_whole {m : Int} (hv : v.whole? = some m) (hw : w.whole? = some m) :
    v.equals w = true := by
  cases v <;> cases w <;> simp_all [Value.equals, Value.equalsFlat, Value.whole?]

theorem equals_self_of_isWholeOrNull (h : isWholeOrNull v = true) : v.equals v = true := by
  rcases Bool.or_eq_true_iff.1 h with h | h
  · obtain ⟨m, hm⟩ := Option.isSome_iff_exists.1 h
    exact equals_of_whole hm hm
  · cases v <;> first | rfl | cases h

theorem equalsItems_self : ∀ {vs : List Value}, (∀ v ∈ vs, v.equals v = true) →
    Value.equalsItems vs vs = true
  | [], _ => rfl
  | v :: vs, h => by
    obtain ⟨hv, hvs⟩ := List.forall_mem_cons.1 h
    rw [Value.equalsItems, hv, equalsItems_self hvs]
    rfl

theorem equals?_self (h : placeIsTyped p = true) : Location.equals? p p = true := by
  cases p with
  | none => rfl
  | some l =>
    obtain ⟨hline, hcolumn⟩ := Bool.and_eq_true_iff.1 h
    rw [Location.equals?, Location.equals, equals_self_of_isWholeOrNull hline,
      equals_self_of_isWholeOrNull hcolumn]
    rfl

/-- A leaf equals what is kept of it just if it is no MDX element with a source. -/
theorem leaf_equals_kept_iff (h : l.isTyped = true) (p : Option Location) :
    l.kept.equals l = true ↔ (Node.leaf l p).losesSource = false := by
  cases l with
  | foreign k v name =>
    obtain ⟨hv, hname⟩ := Bool.and_eq_true_iff.1 h
    obtain ⟨s, rfl⟩ := eq_str_of_isText hv
    cases he : k.isElement with
    | true =>
      rw [if_pos he] at hname
      have hsource : (Value.str "").equals (.str s) = true ↔ (Value.str s).truthy = false := by
        by_cases hs : s = ""
        · simp [hs, Value.equals, Value.equalsFlat, Value.truthy]
        · simp [hs, Ne.symm hs, Value.equals, Value.equalsFlat, Value.truthy]
      simpa [Leaf.kept, Leaf.equals, Node.losesSource, he, equals_self_of_isTextOrNull hname]
        using hsource
    | false =>
      rw [if_neg (by simp [he])] at hname
      have hnull : name.equals name = true :=
        equals_self_of_isTextOrNull (Bool.or_eq_true_iff.2 (.inr hname))
      simp [Leaf.kept, Leaf.equals, Node.losesSource, he, equals_self_of_isText hv, hnull]
  | _ =>
    simp_all [Leaf.kept, Leaf.equals, Node.losesSource, Leaf.isTyped, leafIsFilled,
      Definition.equals, equals_self_of_isText, equals_self_of_isTextOrNull]

theorem branch_equals_kept (h : b.isTyped = true) : b.kept.equals b = true := by
  cases b with
  | heading level =>
    obtain ⟨n, hlevel, -⟩ := level_of_isTyped h
    rw [Branch.kept, hlevel]
    exact equals_of_whole rfl hlevel
  | list ordered start =>
    cases ordered with
    | bool b =>
      have hordered : (Value.bool b).equals (.bool b) = true := equals_of_whole rfl rfl
      simp [Branch.kept, Branch.equals, hordered, equals_self_of_isWholeOrNull h]
    | _ => cases h
  | table align =>
    cases align with
    | list vs =>
      exact equalsItems_self fun v hv => equals_self_of_isTextOrNull (List.all_eq_true.1 h v hv)
    | _ => cases h
  | _ =>
    simp_all [Branch.kept, Branch.equals, Branch.isTyped, branchIsFilled, equals_self_of_isText,
      equals_self_of_isTextOrNull]

theorem equalsEach_kept_iff {P : Node → Prop} : ∀ {ns : List Node},
    (∀ n ∈ ns, (n.kept.equals n = true ↔ P n)) →
    (Node.equalsEach (Node.keptEach ns) ns = true ↔ ∀ n ∈ ns, P n)
  | [], _ => by simp [Node.keptEach, Node.equalsEach]
  | n :: ns, h => by
    obtain ⟨hn, hns⟩ := List.forall_mem_cons.1 h
    rw [Node.keptEach, Node.equalsEach, Bool.and_eq_true_iff, hn, equalsEach_kept_iff hns,
      List.forall_mem_cons]

/-- **A well-typed tree equals what is kept of it just if no element in it loses its source.** -/
theorem equals_kept_iff (h : n.WellTyped) :
    n.kept.equals n = true ↔ n.All fun m => m.losesSource = false := by
  induction n using Node.induct with
  | leaf l p =>
    obtain ⟨hl, hp⟩ := wellTyped_leaf.1 h
    rw [Node.kept, Node.equals, equals?_self hp, Bool.and_true, Node.all_leaf]
    exact leaf_equals_kept_iff hl p
  | branch b ns p ih =>
    obtain ⟨⟨hb, hp⟩, hns⟩ := wellTyped_branch.1 h
    rw [Node.kept, Node.equals, branch_equals_kept hb, equals?_self hp, Bool.true_and,
      Bool.and_true, equalsEach_kept_iff fun n hn => ih n hn (hns n hn), Node.all_branch]
    exact (and_iff_right rfl).symm

end Equality

/-! ### Writing and reading -/

/-- **A well-typed tree is written unless one of its nodes is of no known kind, and what is written is
read, strictly or leniently and with nothing reported, as what is kept of the tree.** This equals the
tree just if no MDX element in it has a source. -/
theorem written_reads_kept {n : Node} (h : n.WellTyped) :
    ((¬ n.All fun m => m.isNamed = true) → n.toValue = .error .noName) ∧
    ((n.All fun m => m.isNamed = true) → ∃ v, n.toValue = .ok v ∧
      (∀ (strict : Bool) (log : List Record), readNode strict v log = (.ok (some n.kept), log)) ∧
      (n.kept.equals n = true ↔ n.All fun m => m.losesSource = false)) := by
  refine ⟨toValue_noName h, fun hn => ?_⟩
  obtain ⟨v, hv, -, hread⟩ := readsAs_kept h hn
  exact ⟨v, hv, hread, equals_kept_iff h⟩

/-- A heading whose level is a truth value, an ordered list in a known place, a table, an expression
with a source, and an MDX element with a name only. -/
def album : Node :=
  .container .root [
    .of (.heading (.bool true)) [.text "Mods"],
    .branch (.list (.bool true) (.int 3)) [.container .listItem []] (some ⟨.int 4, .null⟩),
    .of (.table (.list [.str "left", .null])) [.container .tableRow [.container .tableCell []]],
    .leaf (.foreign .textExpression (.str "1 + 1") .null) (some ⟨.null, .null⟩),
    .leaf (.foreign .flowElement (.str "") (.str "Tabs")) none]

theorem written_reads_kept_album : album.WellTyped ∧ (album.All fun m => m.isNamed = true) ∧
    ∃ v, album.toValue = .ok v ∧
      (∀ (strict : Bool) (log : List Record),
        readNode strict v log = (.ok (some album.kept), log)) ∧
      album.kept.equals album = true := by
  have h : album.WellTyped := by decide
  have hn : album.All fun m => m.isNamed = true := by decide
  obtain ⟨v, hv, hread, hequal⟩ := (written_reads_kept h).2 hn
  exact ⟨h, hn, v, hv, hread, hequal.2 (by decide)⟩

/-- An MDX element with a source and a name. -/
def tabs : Node := .leaf (.foreign .flowElement (.str "<Tabs/>") (.str "Tabs")) none

/-- **An MDX element is read without its source**, so that it is not equal to what was written. -/
theorem tabs_lose_source : tabs.WellTyped ∧ ∃ v m, tabs.toValue = .ok v ∧
    (∀ log : List Record, readNode true v log = (.ok (some m), log)) ∧ m.equals tabs = false := by
  have h : tabs.WellTyped := by decide
  obtain ⟨v, hv, -, hread⟩ := readsAs_kept h (by decide)
  exact ⟨h, v, tabs.kept, hv, hread true, by decide⟩

end Bulletin.Mdast
