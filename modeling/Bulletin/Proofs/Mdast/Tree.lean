import Bulletin.Mdast.Node

/-! # The nodes of a tree

The nodes of a tree are listed in document order by `Node.subtrees`. A property that looks at one
node without its children is carried over to a whole tree by `Node.All`, and proofs about trees go by
`Node.induct`: what holds of a branch if it holds of each child holds of every tree. -/

namespace Bulletin.Mdast

namespace Node

mutual

/-- The nodes of a tree in document order, the tree itself first. -/
def subtrees : Node → List Node
  | leaf l p => [leaf l p]
  | branch b ns p => branch b ns p :: subtreesEach ns

/-- The nodes of a row of trees in document order. -/
def subtreesEach : List Node → List Node
  | [] => []
  | n :: ns => subtrees n ++ subtreesEach ns

end

theorem mem_subtreesEach {m : Node} : ∀ {ns : List Node},
    m ∈ subtreesEach ns ↔ ∃ n ∈ ns, m ∈ n.subtrees
  | [] => by simp [subtreesEach]
  | n :: ns => by simp [subtreesEach, mem_subtreesEach]

theorem subtreesEach_eq_flatMap : ∀ ns : List Node, subtreesEach ns = ns.flatMap subtrees
  | [] => rfl
  | n :: ns => by rw [subtreesEach, subtreesEach_eq_flatMap ns, List.flatMap_cons]

/-- **A property of every node of a tree.** -/
def All (P : Node → Prop) (n : Node) : Prop := ∀ m ∈ n.subtrees, P m

instance (P : Node → Prop) [DecidablePred P] (n : Node) : Decidable (n.All P) := by
  unfold All; infer_instance

variable {P : Node → Prop}

@[simp] theorem all_leaf {l : Leaf} {p : Option Location} :
    All P (leaf l p) ↔ P (leaf l p) := by simp [All, subtrees]

@[simp] theorem all_branch {b : Branch} {ns : List Node} {p : Option Location} :
    All P (branch b ns p) ↔ P (branch b ns p) ∧ ∀ n ∈ ns, All P n := by
  simp only [All, subtrees, List.mem_cons, forall_eq_or_imp, mem_subtreesEach]
  refine and_congr_right fun _ => ⟨fun h n hn m hm => h m ⟨n, hn, hm⟩, ?_⟩
  rintro h m ⟨n, hn, hm⟩
  exact h n hn m hm

/-- **Induction on trees.** -/
@[elab_as_elim]
theorem induct {P : Node → Prop} (leaf : ∀ l p, P (.leaf l p))
    (branch : ∀ b ns p, (∀ n ∈ ns, P n) → P (.branch b ns p)) : ∀ n, P n
  | .leaf l p => leaf l p
  | .branch b ns p => branch b ns p fun n _ => induct leaf branch n

/-! ### Trees that hold texts -/

/-- Whether a node, if it is a literal, holds a text. -/
def holdsText : Node → Bool
  | leaf (.literal _ v) _ => v.text?.isSome
  | _ => true

/-- **A tree whose literals all hold texts.** -/
def Textual (n : Node) : Prop := n.All fun m => m.holdsText

instance (n : Node) : Decidable n.Textual := by
  unfold Textual; infer_instance

theorem textual_branch {b : Branch} {ns : List Node} {p : Option Location} :
    (branch b ns p).Textual ↔ ∀ n ∈ ns, n.Textual := by
  unfold Textual; simp [holdsText]

theorem Textual.literal {k : Literal} {v : Value} {p : Option Location}
    (h : (leaf (.literal k v) p).Textual) : ∃ s, v = .str s := by
  simp only [Textual, all_leaf, holdsText] at h
  cases v <;> simp [Value.text?] at h
  exact ⟨_, rfl⟩

end Node

end Bulletin.Mdast
