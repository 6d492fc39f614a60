import Bulletin.Proofs.Markdown.Handed
import Bulletin.Proofs.Markdown.Rules
import Bulletin.Proofs.Page.Mirror

/-! # The arrangement of a Markdown document

The tree of a Markdown text is in order, whatever tokens are handed over: a page leaves out rows outside
of tables, cells outside of rows and nodes that it puts off, so none of these may stand where it does not
belong.

What a token becomes depends on where it stands, and so does what its branch holds. So the nodes that
tokens of a role become (`Role.makes`) are those that a branch over this role (`inside`) may hold, and
each rule of the conversion keeps this (`makes_of_converted`).

* `Fits`: what the child of a node may be.
* `read_arranged`: the tree of a text. -/

namespace Bulletin.Markdown.Handed

open Mdast (Node Leaf Branch)
open Bulletin.Proofs
open Bulletin.Proofs.Page.Mirror (isTable)
open Bulletin.Proofs.Page.Words (isItem)

/-! ### The kinds of nodes -/

/-- A node of running text. -/
def isInline : Node → Bool
  | .leaf (.literal k _) _ => [.text, .inlineCode, .inlineMath, .html].contains k
  | .leaf .lineBreak _ => true
  | .leaf (.image ..) _ => true
  | .leaf (.imageReference ..) _ => true
  | .leaf (.footnoteReference ..) _ => true
  | .branch (.container k) _ _ => [.emphasis, .strong, .delete].contains k
  | .branch (.link ..) _ _ => true
  | .branch (.linkReference ..) _ _ => true
  | _ => false

/-- A node that stands by itself, as blocks do. -/
def isFlow : Node → Bool
  | .leaf (.literal k _) _ => [.math, .html].contains k
  | .leaf (.code ..) _ => true
  | .leaf .thematicBreak _ => true
  | .branch (.container k) _ _ => [.paragraph, .blockquote, .listItem].contains k
  | .branch (.heading _) _ _ => true
  | .branch (.list ..) _ _ => true
  | .branch (.table _) _ _ => true
  | .branch (.footnoteDefinition ..) _ _ => true
  | _ => false

/-- A node that holds running text only. -/
def holdsInline : Node → Bool
  | .branch (.container k) _ _ => [.paragraph, .tableCell, .emphasis, .strong, .delete].contains k
  | .branch (.heading _) _ _ => true
  | .branch (.link ..) _ _ => true
  | .branch (.linkReference ..) _ _ => true
  | _ => false

/-- A list. -/
def isList : Node → Bool
  | .branch (.list ..) _ _ => true
  | _ => false

/-- The front matter of a document. -/
def isFront : Node → Bool
  | .leaf (.literal k _) _ => [.yaml, .toml].contains k
  | _ => false

/-- A link definition. -/
def isDefinition : Node → Bool
  | .leaf (.definition _) _ => true
  | _ => false

/-- A node that no text becomes: the root of another document, or a construct of MDX or of no known
kind. -/
def isStray : Node → Bool
  | .leaf (.foreign ..) _ => true
  | .branch (.container k) _ _ => k == .root
  | _ => false

/-! ### What a node may hold -/

/-- The nodes that tokens of a role become. -/
def Role.makes : Role → Node → Bool
  | .block, n => isFlow n
  | .item, n => isItem n
  | .note, n => isFlow n
  | .part, n => Page.Preformatted.isRow n
  | .row, n => Page.Preformatted.isRow n
  | .cell, n => Page.Preformatted.isCell n
  | .inline, n => isInline n

/-- The role of the tokens whose nodes a branch holds. -/
def inside : Branch → Role
  | .container k =>
    match k with
    | .root | .blockquote | .listItem => .block
    | .tableRow => .cell
    | _ => .inline
  | .heading _ => .inline
  | .list .. => .item
  | .table _ => .row
  | .link .. => .inline
  | .footnoteDefinition .. => .block
  | .linkReference .. => .inline

/-- Whether the level of a node, if it is a heading, lies between 1 and 6. -/
def levelFits : Node → Bool
  | .branch (.heading level) _ _ => level.whole?.any fun n => 1 ≤ n && n ≤ 6
  | _ => true

/-- A node that only tokens become: neither front matter nor a link definition, and not stray. -/
def isOwn (n : Node) : Bool := !(isFront n || isDefinition n || isStray n)

/-- Whether a node is one that tokens become, and its children are what it may hold. -/
def isInOrder : Node → Bool
  | .leaf l p => isOwn (.leaf l p)
  | .branch b ns p => ns.all (inside b).makes && levelFits (.branch b ns p) && isOwn (.branch b ns p)

/-- **What the child of a node may be**: rows stand only in tables, which hold nothing else, and cells
only in rows, which hold nothing else. A list holds items, and what holds running text holds no blocks. -/
structure Fits (n c : Node) : Prop where
  row : Page.Preformatted.isRow c = isTable n
  cell : Page.Preformatted.isCell c = Page.Preformatted.isRow n
  item : isList n = true → isItem c = true
  running : holdsInline n = true → isInline c = true

/-! ### The rules keep it -/

section Rules
variable {role inner : Role} {fields : Fields} {l : Leaf} {b : Branch} {ns : List Node}

/-- Whether the kind in a type, if there is one, is that of a node of running text. -/
def InlineType.isRunning : InlineType → Bool
  | .literal k => isInline (.literal k .null)
  | .container k => isInline (.container k [])
  | _ => true

/-- Whether the kind in a type, if there is one, is that of a container of blocks. -/
def BlockType.isStanding : BlockType → Bool
  | .container k => [.blockquote, .listItem].contains k
  | _ => true

theorem isRunning_of_type {type : InlineType}
    (h : InlineType.ofValue? (textField fields "type") = .ok (some type)) :
    type.isRunning = true := by
  have hall : InlineType.table.all (fun p => p.2.isRunning) = true := rfl
  exact List.all_eq_true.1 hall _ (mem_inlineTypes h)

theorem isStanding_of_type {type : BlockType}
    (h : BlockType.ofValue? (textField fields "type") = some type) : type.isStanding = true := by
  have hall : BlockType.names.all (fun p => p.2.isStanding) = true := rfl
  exact List.all_eq_true.1 hall _ (mem_blockTypes h)

theorem makes_of_becomes (h : Becomes role fields l) : role.makes (.leaf l none) = true := by
  cases h with
  | literal htype => exact isRunning_of_type htype
  | _ => rfl

theorem makes_of_opens (h : Opens role fields inner b) (ns : List Node) :
    role.makes (.of b ns) = true ∧ levelFits (.of b ns) = true ∧
      ∀ n, inner.makes n = true → (inside b).makes n = true := by
  cases h with
  | heading htype => exact ⟨rfl, (headingLevel_cases _).1, fun _ => id⟩
  | container htype =>
    have hk := isStanding_of_type htype
    simp only [BlockType.isStanding, List.contains_cons, List.contains_nil, Bool.or_false,
      Bool.or_eq_true, beq_iff_eq] at hk
    obtain rfl | rfl := hk <;> exact ⟨rfl, rfl, fun _ => id⟩
  | span htype =>
    have hk := isRunning_of_type htype
    simp only [InlineType.isRunning, isInline, Node.container, Node.of, List.contains_cons,
      List.contains_nil, Bool.or_false, Bool.or_eq_true, beq_iff_eq] at hk
    obtain rfl | rfl | rfl := hk <;> exact ⟨rfl, rfl, fun _ => id⟩
  | _ => exact ⟨rfl, rfl, fun _ => id⟩

/-- What tokens of the second role become is what a token of the first becomes. -/
theorem makes_of_splices (h : Splices role fields inner) (n : Node) :
    inner.makes n = role.makes n := by
  cases h <;> rfl

theorem isOwn_of_makes {n : Node} (h : role.makes n = true) : isOwn n = true := by
  cases n with
  | leaf l p =>
    cases l with
    | literal k w => cases role <;> cases k <;> first | rfl | cases h
    | _ => cases role <;> first | rfl | cases h
  | branch b ns p =>
    cases b with
    | container k => cases role <;> cases k <;> first | rfl | cases h
    | _ => rfl

/-- **Each rule keeps the order of the tree.** -/
theorem makes_of_converted {vs : List Value} (h : Converted role vs ns) :
    ∀ n ∈ ns, role.makes n = true ∧ n.All fun m => isInOrder m = true := by
  induction h with
  | nil => simp
  | cons _ _ ihfirst ihrest =>
    intro n hn
    exact (List.mem_append.1 hn).elim (ihfirst n) (ihrest n)
  | vanish _ => simp
  | leaf hl =>
    simp only [List.mem_singleton, forall_eq]
    exact ⟨makes_of_becomes hl, Node.all_leaf.2 (isOwn_of_makes (makes_of_becomes hl))⟩
  | @branch role inner fields b ns hb _ ih =>
    simp only [List.mem_singleton, forall_eq]
    obtain ⟨hmakes, hlevel, hinside⟩ := makes_of_opens hb ns
    have hall : ns.all (inside b).makes = true :=
      List.all_eq_true.2 fun n hn => hinside n (ih n hn).1
    have horder : isInOrder (.of b ns) = true := by
      simp only [isInOrder, Node.of, Bool.and_eq_true]
      exact ⟨⟨hall, hlevel⟩, isOwn_of_makes hmakes⟩
    exact ⟨hmakes, Node.all_branch.2 ⟨horder, fun n hn => (ih n hn).2⟩⟩
  | splice hinner _ ih =>
    intro n hn
    rw [← makes_of_splices hinner]
    exact ih n hn

end Rules

/-! ### The tree of a text -/

section Tree
variable {b : Branch} {n c : Node} {ns : List Node} {p : Option Mdast.Location}

theorem kind_of_makes {role : Role} (h : role.makes c = true) :
    Page.Preformatted.isRow c = (role == .part || role == .row) ∧
      Page.Preformatted.isCell c = (role == .cell) := by
  cases c with
  | leaf l p => cases role <;> first | exact ⟨rfl, rfl⟩ | cases h
  | branch b ns p =>
    cases b with
    | container k => cases role <;> cases k <;> first | exact ⟨rfl, rfl⟩ | cases h
    | _ => cases role <;> first | exact ⟨rfl, rfl⟩ | cases h

theorem fits_of_makes (h : (inside b).makes c = true) : Fits (.branch b ns p) c := by
  obtain ⟨hrow, hcell⟩ := kind_of_makes h
  refine ⟨hrow.trans ?_, hcell.trans ?_, fun hlist => ?_, fun hrunning => ?_⟩
  · cases b with
    | container k => cases k <;> rfl
    | _ => rfl
  · cases b with
    | container k => cases k <;> rfl
    | _ => rfl
  · cases b <;> first | exact h | cases hlist
  · cases b with
    | container k => cases k <;> first | exact h | cases hrunning
    | _ => first | exact h | cases hrunning

theorem fits_of_isInOrder (h : isInOrder n = true) :
    levelFits n = true ∧ ∀ c ∈ n.children, Fits n c := by
  cases n with
  | leaf l p => exact ⟨rfl, by simp [Node.children]⟩
  | branch b ns p =>
    simp only [isInOrder, Bool.and_eq_true] at h
    obtain ⟨⟨hall, hlevel⟩, -⟩ := h
    exact ⟨hlevel, fun c hc => fits_of_makes (List.all_eq_true.1 hall c hc)⟩

theorem fits_root_leaf {l : Leaf} : Fits (.container .root ns) (.leaf l p) :=
  ⟨rfl, rfl, nofun, nofun⟩

theorem isOwn_of_isInOrder (h : isInOrder n = true) : isOwn n = true := by
  cases n with
  | leaf l p => exact h
  | branch b ns p => exact (Bool.and_eq_true_iff.1 h).2

end Tree

/-- **The tree of a Markdown text is in order**, whatever tokens it is cut into. Its front matter comes
first and its link definitions last, in the order of the environment. Between them stand the nodes that
the tokens become, with no other document, no front matter and no link definition among them. -/
theorem read_arranged {tokenizer : Extensions → String → Except String Tokens} {o : MarkdownOptions}
    {text : String} {root : Node} {log log' : List Record}
    (h : read tokenizer o text log = (.ok root, log')) :
    ∃ given blocks links, tokenizer o.extensions (o.splitFront text).2 = .ok given ∧
      linkFields given.env = .ok links ∧
      root = .container .root ((o.splitFront text).1.toList ++
        (blocks ++ (links.filterMap linkDefinition?).map LinkDefinition.node)) ∧
      (∀ n ∈ (o.splitFront text).1, isFront n = true) ∧
      (∀ n ∈ blocks, n.All fun m =>
        isFront m = false ∧ isDefinition m = false ∧ isStray m = false) ∧
      root.All fun m => levelFits m = true ∧ ∀ c ∈ m.children, Fits m c := by
  obtain ⟨given, blocks, links, hgiven, hblocks, hlinks, rfl⟩ := converted_read h
  have hmade := makes_of_converted hblocks
  have hchild : ∀ c ∈ (o.splitFront text).1.toList ++
      (blocks ++ (links.filterMap linkDefinition?).map LinkDefinition.node),
      (∃ l, c = .leaf l none) ∨ c ∈ blocks := fun c hc => by
    rcases List.mem_append.1 hc with hc | hc
    · obtain ⟨k, v, hc, -⟩ := eq_literal_of_front (Option.mem_toList.1 hc)
      exact .inl ⟨.literal k v, hc⟩
    · refine (List.mem_append.1 hc).symm.imp (fun hc => ?_) id
      obtain ⟨d, -, rfl⟩ := List.mem_map.1 hc
      exact ⟨_, rfl⟩
  refine ⟨given, blocks, links, hgiven, hlinks, rfl, fun n hn => ?_, fun n hn m hm => ?_, ?_⟩
  · obtain ⟨k, v, rfl, rfl | rfl⟩ := eq_literal_of_front hn <;> rfl
  · have hown := isOwn_of_isInOrder ((hmade n hn).2 m hm)
    simpa [isOwn, and_assoc] using hown
  · refine Node.all_branch.2 ⟨⟨rfl, fun c hc => ?_⟩, fun c hc => ?_⟩
    · obtain ⟨l, rfl⟩ | hc := hchild c hc
      · exact fits_root_leaf
      · exact fits_of_makes (hmade c hc).1
    · obtain ⟨l, rfl⟩ | hc := hchild c hc
      · exact Node.all_leaf.2 ⟨rfl, by simp [Node.children]⟩
      · exact fun m hm => fits_of_isInOrder ((hmade c hc).2 m hm)

/-- A quote around an item without a list, which holds a heading of the ninth level and a table, where a
paragraph stands between the rows. -/
def scattered : Tokens where
  tokens := .list [
    token "block_quote" [("children", .list [
      token "list_item" [("children", .list [
        token "heading" [("attrs", .dict [("level", .int 9)]), ("children", .list [])],
        token "table" [("children", .list [
          token "table_head" [("children", .list [token "table_cell" [("children", .list [])]])],
          token "paragraph" [("children", .list [])]])]])]])]]
  env := .dict [("ref_links", .dict [("NEXUS", .dict [("url", .str "nexus.example")])])]

theorem read_arranged_scattered : ∃ root log',
    read (fun _ _ => .ok scattered) {} "> 1. # Mods" [] = (.ok root, log') ∧
      ∃ given blocks links, Except.ok (ε := String) scattered = .ok given ∧
        linkFields given.env = .ok links ∧
        root = .container .root ((MarkdownOptions.splitFront {} "> 1. # Mods").1.toList ++
          (blocks ++ (links.filterMap linkDefinition?).map LinkDefinition.node)) ∧
        (∀ n ∈ (MarkdownOptions.splitFront {} "> 1. # Mods").1, isFront n = true) ∧
        (∀ n ∈ blocks, n.All fun m =>
          isFront m = false ∧ isDefinition m = false ∧ isStray m = false) ∧
        root.All fun m => levelFits m = true ∧ ∀ c ∈ m.children, Fits m c := by
  have hone : ∀ {v : Value}, Shaped v → ∀ t ∈ [v], Shaped t := List.forall_mem_singleton.2
  have hshaped : ∀ items, scattered.tokens = .list items → ∀ t ∈ items, Shaped t := by
    rintro items ⟨⟩
    refine hone (.branch rfl rfl (hone (.branch rfl rfl (forall_mem_pair ?_ ?_))))
    · exact .branch rfl rfl nofun
    · refine .branch rfl rfl (forall_mem_pair (.branch rfl rfl ?_) (.branch rfl rfl nofun))
      exact hone (.branch rfl rfl nofun)
  obtain ⟨ds, hds, -⟩ := linkDefinitions_eq (show isEnvironment scattered.env = true from rfl)
  obtain ⟨root, log', hread, -⟩ := succeeds_document filled_front hshaped hds []
  have hrun : read (fun _ _ => .ok scattered) {} "> 1. # Mods" [] = _ := congrFun (read_eq rfl) []
  rw [← hrun] at hread
  exact ⟨root, log', hread, read_arranged hread⟩

end Bulletin.Markdown.Handed
