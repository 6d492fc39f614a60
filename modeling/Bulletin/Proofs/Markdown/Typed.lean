import Bulletin.Markdown.Document
import Bulletin.Markdown.FrontMatter
import Bulletin.Proofs.Mdast.Canonical
import Bulletin.Proofs.Mdast.Tree

/-! # Documents of well-typed tokens

Tokens are well typed if they carry texts, or no title, label or alignment, and whole numbers where
a list starts and a heading has its level; the first has not more digits than can be read. The tokens that become no node may carry anything. The
document of well-typed tokens is a canonical and plain root whose literals hold texts: this is shown
of the nodes of an inline token, of a table and of a block, each by induction on the tokens.

* `good_document`: the document of well-typed tokens, with or without front matter.
* `textual_document`: the document of well-typed blocks, whatever its link definitions. -/

namespace Bulletin

/-- Whether a value is a text. -/
def Value.isText : Value → Bool
  | .str _ => true
  | _ => false

/-- Whether a value is a whole number. -/
def Value.isInt : Value → Bool
  | .int _ => true
  | _ => false

/-- Whether a value is a whole number that can be read from a text. -/
def Value.isNumeral : Value → Bool
  | .int n => digitCount n ≤ digitLimit
  | _ => false

/-- Whether a value is null. -/
def Value.isNull : Value → Bool
  | .null => true
  | _ => false

theorem Value.plain_of_isText {v : Value} (h : v.isText) : v.Plain := by
  cases v <;> first | exact plain_str _ | cases h

theorem Value.plain_of_isNull {v : Value} (h : v.isNull) : v.Plain := by
  cases v <;> first | exact plain_null | cases h

theorem Value.plain_of_isNumeral {v : Value} (h : v.isNumeral) : v.Plain := by
  cases v <;> first | exact (plain_int _).2 (of_decide_eq_true h) | cases h

theorem Value.plain_of_orNull {v : Value} {b : Bool} (hb : b → v.Plain) (h : b || v.isNull) :
    v.Plain :=
  (Bool.or_eq_true_iff.1 h).elim hb plain_of_isNull

namespace Markdown

open Mdast (Node Leaf Branch)

/-! ### Well-typed tokens -/

mutual

/-- Whether an inline token carries what a tokenizer gives. -/
def Inline.isTyped : Inline → Bool
  | .text raw => raw.isText
  | .code raw => raw.isText
  | .math raw => raw.isText
  | .html raw => raw.isText
  | .emphasis children => Inline.areTyped children
  | .strong children => Inline.areTyped children
  | .delete children => Inline.areTyped children
  | .link url title children =>
    url.isText && (title.isText || title.isNull) && Inline.areTyped children
  | .linkReference _ label children =>
    (label.isText || label.isNull) && Inline.areTyped children
  | .image url title children =>
    url.isText && (title.isText || title.isNull) && Inline.areTyped children
  | .imageReference _ label children =>
    (label.isText || label.isNull) && Inline.areTyped children
  | _ => true

/-- Whether a row of inline tokens carries what a tokenizer gives. -/
def Inline.areTyped : List Inline → Bool
  | [] => true
  | t :: ts => Inline.isTyped t && Inline.areTyped ts

end

/-- Whether a cell of a table carries what a tokenizer gives. -/
def Cell.isTyped (c : Cell) : Bool :=
  (c.align.isText || c.align.isNull) && c.content.all Inline.areTyped

mutual

/-- Whether a block carries what a tokenizer gives. -/
def Block.isTyped : Block → Bool
  | .heading level children => level.isInt && Inline.areTyped children
  | .paragraph children => Inline.areTyped children
  | .quote children => Block.areTyped children
  | .list _ start items => (start.isNumeral || start.isNull) && Block.itemsAreTyped items
  | .item children => Block.areTyped children
  | .table parts => parts.all fun p => p.rows.all fun cells => cells.all Cell.isTyped
  | .html raw => raw.isText
  | .notes items => Block.notesAreTyped items
  | _ => true

/-- Whether a row of blocks carries what a tokenizer gives. -/
def Block.areTyped : List Block → Bool
  | [] => true
  | b :: bs => Block.isTyped b && Block.areTyped bs

/-- Whether the items of a list carry what a tokenizer gives. -/
def Block.itemsAreTyped : List (List Block) → Bool
  | [] => true
  | bs :: r => Block.areTyped bs && Block.itemsAreTyped r

/-- Whether footnotes carry what a tokenizer gives. -/
def Block.notesAreTyped : List (String × List Block) → Bool
  | [] => true
  | (_, bs) :: r => Block.areTyped bs && Block.notesAreTyped r

end

/-- Whether a link definition carries what a tokenizer gives. -/
def LinkDefinition.isTyped (d : LinkDefinition) : Bool :=
  d.url.isText && (d.title.isText || d.title.isNull) && (d.label.isText || d.label.isNull)

/-- **Tokens that carry texts, nulls and whole numbers where a tokenizer gives them.** -/
def Tokens.isTyped (tokens : Tokens) : Bool :=
  Block.areTyped tokens.blocks && tokens.definitions.all LinkDefinition.isTyped

/-! ### The nodes of tokens -/

/-- A tree that is canonical and plain and whose literals hold texts. -/
def Good (n : Node) : Prop := n.Canonical ∧ n.Plain ∧ n.Textual

theorem good_leaf {l : Leaf} (hc : l.Canonical) (hp : ∀ v ∈ l.values, v.Plain)
    (ht : (Node.leaf l none).holdsText = true) : Good (.leaf l none) :=
  ⟨Node.canonical_leaf.2 hc, Node.plain_leaf.2 ⟨hp, nofun⟩, Node.all_leaf.2 ht⟩

theorem good_of {b : Branch} {ns : List Node} (hc : b.Canonical) (hp : ∀ v ∈ b.values, v.Plain)
    (hn : ∀ n ∈ ns, Good n) : Good (.of b ns) :=
  ⟨Node.canonical_branch.2 ⟨hc, fun n h => (hn n h).1⟩,
    Node.plain_branch.2 ⟨⟨hp, nofun⟩, fun n h => (hn n h).2.1⟩,
    Node.textual_branch.2 fun n h => (hn n h).2.2⟩

theorem good_container {k : Mdast.Container} {ns : List Node} (hn : ∀ n ∈ ns, Good n) :
    Good (.container k ns) :=
  good_of trivial nofun hn

theorem good_literal {k : Mdast.Literal} {v : Value} (h : v.isText) : Good (.literal k v) := by
  have ht : v.text?.isSome = true := by
    cases v <;> first | rfl | cases h
  have hp := Value.plain_of_isText h
  exact good_leaf trivial (by simpa [Leaf.values] using hp) ht

theorem orElse_str (s : String) : (Value.str s).orElse (.str "") = .str s := by
  unfold Value.orElse
  split_ifs with h
  · rfl
  · have hs : s = "" := by simpa [Value.truthy] using h
    rw [hs]

theorem plain_of_textOrNull {v : Value} (h : (v.isText || v.isNull) = true) : v.Plain :=
  Value.plain_of_orNull Value.plain_of_isText h

mutual

/-- **The node of a well-typed inline token is canonical, plain and textual.** -/
theorem good_inlineNode : ∀ t : Inline, t.isTyped → ∀ n ∈ Inline.node t, Good n
  | .text raw, h, _, rfl => good_literal h
  | .softBreak, _, _, rfl => good_literal rfl
  | .lineBreak, _, _, rfl => good_leaf trivial nofun rfl
  | .code raw, h, _, rfl => good_literal h
  | .math raw, h, _, rfl => good_literal h
  | .html raw, h, _, rfl => good_literal h
  | .noteReference key label, _, _, rfl => good_leaf trivial (by simp [Leaf.values]) rfl
  | .emphasis children, h, _, rfl => good_container (good_inlineNodes children h)
  | .strong children, h, _, rfl => good_container (good_inlineNodes children h)
  | .delete children, h, _, rfl => good_container (good_inlineNodes children h)
  | .link url title children, h, _, rfl => by
    simp only [Inline.isTyped, Bool.and_eq_true] at h
    have hu := Value.plain_of_isText h.1.1
    have ht := plain_of_textOrNull h.1.2
    exact good_of trivial (by simp [Branch.values, hu, ht]) (good_inlineNodes children h.2)
  | .linkReference key label children, h, _, rfl => by
    simp only [Inline.isTyped, Bool.and_eq_true] at h
    have hl := plain_of_textOrNull h.1
    exact good_of trivial (by simp [Branch.values, hl]) (good_inlineNodes children h.2)
  | .image url title children, h, _, rfl => by
    simp only [Inline.isTyped, Bool.and_eq_true] at h
    have hu := Value.plain_of_isText h.1.1
    have ht := plain_of_textOrNull h.1.2
    exact good_leaf (orElse_str _) (by simp [Leaf.values, hu, ht]) rfl
  | .imageReference key label children, h, _, rfl => by
    simp only [Inline.isTyped, Bool.and_eq_true] at h
    have hl := plain_of_textOrNull h.1
    exact good_leaf (orElse_str _) (by simp [Leaf.values, hl]) rfl
  | .unknown _ _ _, _, _, hn => by cases hn

theorem good_inlineNodes : ∀ ts : List Inline, Inline.areTyped ts → ∀ n ∈ Inline.nodes ts, Good n
  | [], _, _, hn => by cases hn
  | t :: ts, h, n, hn => by
    simp only [Inline.areTyped, Bool.and_eq_true] at h
    rcases List.mem_append.1 hn with hn | hn
    · exact good_inlineNode t h.1 n (Option.mem_toList.1 hn)
    · exact good_inlineNodes ts h.2 n hn

end

theorem good_rowNode {cells : List Cell} (h : cells.all Cell.isTyped) : Good (rowNode cells) := by
  refine good_container fun n hn => ?_
  obtain ⟨c, hc, hn⟩ := List.mem_filterMap.1 hn
  obtain ⟨ts, hts, rfl⟩ := Option.map_eq_some_iff.1 hn
  have ht : c.isTyped := List.all_eq_true.1 h c hc
  simp only [Cell.isTyped, hts, Option.all_some, Bool.and_eq_true] at ht
  exact good_container (good_inlineNodes ts ht.2)

theorem plain_alignments {parts : List TablePart}
    (h : ∀ p ∈ parts, ∀ cells ∈ p.rows, cells.all Cell.isTyped) :
    ∀ v ∈ alignments parts, v.Plain := by
  unfold alignments
  refine List.foldlRecOn (motive := fun align : List Value => ∀ v ∈ align, v.Plain) parts _
    (by simp) fun align ha p hp => ?_
  cases p with
  | head cells =>
    intro v hv
    obtain ⟨c, hc, rfl⟩ := List.mem_map.1 hv
    have ht : c.isTyped := List.all_eq_true.1 (h _ hp cells List.mem_cons_self) c hc
    simp only [Cell.isTyped, Bool.and_eq_true] at ht
    exact plain_of_textOrNull ht.1
  | body rows => exact ha

/-- **The node of a table of well-typed cells is canonical, plain and textual.** -/
theorem good_tableNode {parts : List TablePart}
    (h : ∀ p ∈ parts, ∀ cells ∈ p.rows, cells.all Cell.isTyped) : Good (tableNode parts) := by
  refine good_of ⟨_, rfl⟩ ?_ fun n hn => ?_
  · simpa [Branch.values, Value.plain_list] using plain_alignments h
  · obtain ⟨p, hp, hn⟩ := List.mem_flatMap.1 hn
    obtain ⟨cells, hcells, rfl⟩ := List.mem_map.1 hn
    exact good_rowNode (h p hp cells hcells)

theorem good_heading (level : Value) {ns : List Node} (hl : level.isInt) (hn : ∀ n ∈ ns, Good n) :
    Good (.of (.heading (headingLevel level)) ns) := by
  obtain ⟨m, hm, hr⟩ : ∃ m : Int, headingLevel level = .int m ∧ 1 ≤ m ∧ m ≤ 6 := by
    cases level with
    | int n =>
      simp only [headingLevel, Value.whole?, Bool.and_eq_true, decide_eq_true_eq]
      split_ifs with h
      · exact ⟨n, rfl, h⟩
      · exact ⟨1, rfl, by decide⟩
    | _ => cases hl
  rw [hm]
  exact good_of ⟨m, rfl, hr⟩ (List.forall_mem_singleton.2 (Mdast.plain_level hr)) hn

theorem plain_language (info : Option String) : (language info).Plain := by
  unfold language
  split <;> simp

theorem plain_of_numeralOrNull {v : Value} (h : (v.isNumeral || v.isNull) = true) : v.Plain :=
  Value.plain_of_orNull Value.plain_of_isNumeral h

mutual

/-- **The nodes of a well-typed block are canonical, plain and textual.** -/
theorem good_blockNodes : ∀ b : Block, b.isTyped → ∀ n ∈ Block.nodes b, Good n
  | .heading level children, h, n, hn => by
    simp only [Block.isTyped, Bool.and_eq_true] at h
    obtain rfl := List.mem_singleton.1 hn
    exact good_heading level h.1 (good_inlineNodes children h.2)
  | .paragraph children, h, n, hn => by
    obtain rfl := List.mem_singleton.1 hn
    exact good_container (good_inlineNodes children h)
  | .code raw info, _, n, hn => by
    obtain rfl := List.mem_singleton.1 hn
    exact good_leaf trivial (by simp [Leaf.values, plain_language]) rfl
  | .quote children, h, n, hn => by
    obtain rfl := List.mem_singleton.1 hn
    exact good_container (good_blocksNodes children h)
  | .list ordered start items, h, n, hn => by
    simp only [Block.isTyped, Bool.and_eq_true] at h
    obtain rfl := List.mem_singleton.1 hn
    exact good_of ⟨ordered, rfl⟩ (by simp [Branch.values, plain_of_numeralOrNull h.1])
      (good_itemNodes items h.2)
  | .item children, h, n, hn => by
    obtain rfl := List.mem_singleton.1 hn
    exact good_container (good_blocksNodes children h)
  | .table parts, h, n, hn => by
    obtain rfl := List.mem_singleton.1 hn
    simp only [Block.isTyped, List.all_eq_true] at h
    exact good_tableNode fun p hp cells hc => List.all_eq_true.2 (h p hp cells hc)
  | .thematicBreak, _, n, hn => by
    obtain rfl := List.mem_singleton.1 hn
    exact good_leaf trivial nofun rfl
  | .html raw, h, n, hn => by
    obtain rfl := List.mem_singleton.1 hn
    exact good_literal h
  | .math raw, _, n, hn => by
    obtain rfl := List.mem_singleton.1 hn
    exact good_literal rfl
  | .notes items, h, n, hn => good_noteNodes items h n hn
  | .blankLine, _, _, hn => by cases hn
  | .unknown _, _, _, hn => by cases hn

theorem good_blocksNodes : ∀ bs : List Block, Block.areTyped bs → ∀ n ∈ Block.nodesEach bs, Good n
  | [], _, _, hn => by cases hn
  | b :: bs, h, n, hn => by
    simp only [Block.areTyped, Bool.and_eq_true] at h
    rcases List.mem_append.1 hn with hn | hn
    · exact good_blockNodes b h.1 n hn
    · exact good_blocksNodes bs h.2 n hn

theorem good_itemNodes : ∀ items : List (List Block), Block.itemsAreTyped items →
    ∀ n ∈ Block.itemNodes items, Good n
  | [], _, _, hn => by cases hn
  | bs :: r, h, n, hn => by
    simp only [Block.itemsAreTyped, Bool.and_eq_true] at h
    rcases List.mem_cons.1 hn with rfl | hn
    · exact good_container (good_blocksNodes bs h.1)
    · exact good_itemNodes r h.2 n hn

theorem good_noteNodes : ∀ items : List (String × List Block), Block.notesAreTyped items →
    ∀ n ∈ Block.noteNodes items, Good n
  | [], _, _, hn => by cases hn
  | (key, bs) :: r, h, n, hn => by
    simp only [Block.notesAreTyped, Bool.and_eq_true] at h
    rcases List.mem_cons.1 hn with rfl | hn
    · exact good_of trivial (by simp [Branch.values]) (good_blocksNodes bs h.1)
    · exact good_noteNodes r h.2 n hn

end

theorem good_definition {d : LinkDefinition} (h : d.isTyped) : Good d.node := by
  simp only [LinkDefinition.isTyped, Bool.and_eq_true] at h
  have hu := Value.plain_of_isText h.1.1
  have ht := plain_of_textOrNull h.1.2
  have hl := plain_of_textOrNull h.2
  exact good_leaf trivial (by simp [Leaf.values, hu, ht, hl]) rfl

/-! ### Documents -/

theorem good_front {text : List Char} : ∀ n ∈ (FrontMatter.split text).1, Good n := by
  intro n hn
  unfold FrontMatter.split at hn
  split at hn
  · obtain rfl := Option.mem_some.1 hn
    exact good_literal rfl
  · cases hn

/-- **The document of well-typed tokens is canonical, plain and textual**, and a root. -/
theorem good_document {front : Option Node} (hf : ∀ n ∈ front, Good n) {tokens : Tokens}
    (h : tokens.isTyped) : Good (tokens.document front) ∧ (tokens.document front).IsRoot := by
  refine ⟨good_container fun n hn => ?_, _, none, rfl⟩
  simp only [Tokens.isTyped, Bool.and_eq_true, List.all_eq_true] at h
  rcases List.mem_append.1 hn with hn | hn
  · exact hf n (Option.mem_toList.1 hn)
  · rcases List.mem_append.1 hn with hn | hn
    · exact good_blocksNodes tokens.blocks h.1 n hn
    · obtain ⟨d, hd, rfl⟩ := List.mem_map.1 hn
      exact good_definition (h.2 d hd)

theorem textual_document {front : Option Node} (hf : ∀ n ∈ front, Good n) {tokens : Tokens}
    (h : Block.areTyped tokens.blocks) : (tokens.document front).Textual := by
  refine Node.textual_branch.2 fun n hn => ?_
  rcases List.mem_append.1 hn with hn | hn
  · exact (hf n (Option.mem_toList.1 hn)).2.2
  · rcases List.mem_append.1 hn with hn | hn
    · exact (good_blocksNodes tokens.blocks h n hn).2.2
    · obtain ⟨d, -, rfl⟩ := List.mem_map.1 hn
      exact Node.all_leaf.2 rfl

end Markdown

end Bulletin
