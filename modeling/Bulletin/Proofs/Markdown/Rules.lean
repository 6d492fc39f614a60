import Bulletin.Markdown.Handed
import Bulletin.Proofs.Runs
import Mathlib.Tactic.SplitIfs

/-! # The rules of the conversion

How a token is read depends on where it stands: a block, an item of a list, a note, a part of a table,
one of its rows or cells, or an inline token. There it has a rule by its type: it vanishes, becomes a
leaf, opens a branch for the tokens that it holds, or leaves these in its place. A row of tokens is
converted token by token.

What a conversion has made when it succeeds is derived by these rules, so what they keep holds of every
document, by one induction with a case for each kind of rule.

* `Vanishes`, `Becomes`, `Opens`, `Splices`: the rules, with all that a step asks of its token.
* `Converted`: the nodes that a row of tokens is converted to.
* `converted_inlineNodes`, `converted_tableRows`, `converted_blockNodesEach`: what a conversion has made
  is derived.
* `converted_read`: the same for the document of a text. -/

namespace Bulletin.Markdown.Handed

open Mdast (Node Leaf Branch)
open Bulletin.Proofs

/-- Where a token stands. -/
inductive Role where
  | block
  | item
  | note
  | part
  | row
  | cell
  | inline
  deriving DecidableEq, Repr

/-- The tokens that a token holds; children that are no row are none. -/
def tokensIn (fields : Fields) : List Value :=
  match fields.get? "children" with
  | some (.list items) => items
  | _ => []

/-- The name of the type of a token, empty if it has none. -/
def typeName (fields : Fields) : String := ((textField fields "type").text?).getD ""

/-! ### The rules -/

/-- **A token that vanishes.** -/
inductive Vanishes : Role → Value → Prop
  | block {fields : Fields} :
    (∀ type, BlockType.ofValue? (textField fields "type") = some type → type = .blankLine) →
    Vanishes .block (.dict fields)
  | item {v : Value} : (∀ fields, v ≠ .dict fields) → Vanishes .item v
  | note {fields : Fields} : (fields.getD "type").text? ≠ some "footnote_item" →
    Vanishes .note (.dict fields)
  | part {fields : Fields} : (textField fields "type").text? ≠ some "table_head" →
    (textField fields "type").text? ≠ some "table_body" → Vanishes .part (.dict fields)
  | cell {fields : Fields} : (fields.getD "type").text? ≠ some "table_cell" →
    Vanishes .cell (.dict fields)
  | inline {fields : Fields} : InlineType.ofValue? (textField fields "type") = .ok none →
    Vanishes .inline (.dict fields)

/-- **A token that becomes a leaf.** -/
inductive Becomes : Role → Fields → Leaf → Prop
  | code {fields : Fields} {raw : String} {lang : Value} :
    BlockType.ofValue? (textField fields "type") = some .code → textField fields "raw" = .str raw →
    languageOf ((attributes fields).getD "info") = .ok lang →
    Becomes .block fields (.code (.str (dropLastBreak raw)) lang)
  | thematicBreak {fields : Fields} :
    BlockType.ofValue? (textField fields "type") = some .thematicBreak →
    Becomes .block fields .thematicBreak
  | html {fields : Fields} : BlockType.ofValue? (textField fields "type") = some .html →
    Becomes .block fields (.literal .html (textField fields "raw"))
  | math {fields : Fields} {raw : String} :
    BlockType.ofValue? (textField fields "type") = some .math → textField fields "raw" = .str raw →
    Becomes .block fields (.literal .math (.str (trimBreaks raw)))
  | literal {fields : Fields} {k : Mdast.Literal} :
    InlineType.ofValue? (textField fields "type") = .ok (some (.literal k)) →
    Becomes .inline fields (.literal k (textField fields "raw"))
  | softBreak {fields : Fields} :
    InlineType.ofValue? (textField fields "type") = .ok (some .softBreak) →
    Becomes .inline fields (.literal .text (.str "\n"))
  | lineBreak {fields : Fields} :
    InlineType.ofValue? (textField fields "type") = .ok (some .lineBreak) →
    Becomes .inline fields .lineBreak
  | noteReference {fields : Fields} {key : String} :
    InlineType.ofValue? (textField fields "type") = .ok (some .noteReference) →
    (if (fields.getD "raw").truthy then fields.getD "raw"
      else textField (attributes fields) "label") = .str key →
    Becomes .inline fields (.footnoteReference (.str (Text.lower key)) .null)
  | imageReference {fields : Fields} {key alt : String} :
    InlineType.ofValue? (textField fields "type") = .ok (some .image) →
    plainChildren fields = .ok alt → (fields.getD "ref").truthy = true →
    fields.getD "ref" = .str key →
    Becomes .inline fields
      (.imageReference (.str (Text.lower key)) (.str alt) (fields.getD "label"))
  | image {fields : Fields} {alt : String} :
    InlineType.ofValue? (textField fields "type") = .ok (some .image) →
    plainChildren fields = .ok alt → (fields.getD "ref").truthy = false →
    Becomes .inline fields (.image (textField (attributes fields) "url") (.str alt)
      ((attributes fields).getD "title"))

/-- **A token that opens a branch** for the tokens that it holds, which stand in the second role. -/
inductive Opens : Role → Fields → Role → Branch → Prop
  | heading {fields : Fields} : BlockType.ofValue? (textField fields "type") = some .heading →
    Opens .block fields .inline
      (.heading (headingLevel (((attributes fields).get? "level").getD (.int 1))))
  | paragraph {fields : Fields} : BlockType.ofValue? (textField fields "type") = some .paragraph →
    Opens .block fields .inline (.container .paragraph)
  | container {fields : Fields} {k : Mdast.Container} :
    BlockType.ofValue? (textField fields "type") = some (.container k) →
    Opens .block fields .block (.container k)
  | list {fields : Fields} : BlockType.ofValue? (textField fields "type") = some .list →
    Opens .block fields .item (.list (.bool ((attributes fields).getD "ordered").truthy)
      (startOf ((attributes fields).getD "ordered").truthy (attributes fields)))
  | table {fields : Fields} {align : List Value} :
    BlockType.ofValue? (textField fields "type") = some .table →
    Opens .block fields .part (.table (.list align))
  | item {fields : Fields} : Opens .item fields .block (.container .listItem)
  | note {fields attrs : Fields} {key : String} :
    (fields.getD "type").text? = some "footnote_item" → attributesOf fields = .ok attrs →
    textField attrs "key" = .str key →
    Opens .note fields .block (.footnoteDefinition (.str (Text.lower key)) .null)
  | head {fields : Fields} : (textField fields "type").text? = some "table_head" →
    Opens .part fields .cell (.container .tableRow)
  | row {fields : Fields} : Opens .row fields .cell (.container .tableRow)
  | cell {fields : Fields} : (fields.getD "type").text? = some "table_cell" →
    Opens .cell fields .inline (.container .tableCell)
  | span {fields : Fields} {k : Mdast.Container} :
    InlineType.ofValue? (textField fields "type") = .ok (some (.container k)) →
    Opens .inline fields .inline (.container k)
  | linkReference {fields : Fields} {key : String} :
    InlineType.ofValue? (textField fields "type") = .ok (some .link) →
    (fields.getD "ref").truthy = true → fields.getD "ref" = .str key →
    Opens .inline fields .inline (.linkReference (.str (Text.lower key)) (fields.getD "label"))
  | link {fields : Fields} :
    InlineType.ofValue? (textField fields "type") = .ok (some .link) →
    (fields.getD "ref").truthy = false →
    Opens .inline fields .inline (.link (textField (attributes fields) "url")
      ((attributes fields).getD "title"))

/-- **A token that leaves in its place the tokens that it holds**, which stand in the second role. -/
inductive Splices : Role → Fields → Role → Prop
  | notes {fields : Fields} : BlockType.ofValue? (textField fields "type") = some .notes →
    Splices .block fields .note
  | body {fields : Fields} : (textField fields "type").text? = some "table_body" →
    Splices .part fields .row

/-- **The nodes that a row of tokens is converted to.** -/
inductive Converted : Role → List Value → List Node → Prop
  | nil {role : Role} : Converted role [] []
  | cons {role : Role} {v : Value} {vs : List Value} {ms ns : List Node} :
    Converted role [v] ms → Converted role vs ns → Converted role (v :: vs) (ms ++ ns)
  | vanish {role : Role} {v : Value} : Vanishes role v → Converted role [v] []
  | leaf {role : Role} {fields : Fields} {l : Leaf} : Becomes role fields l →
    Converted role [.dict fields] [.leaf l none]
  | branch {role inner : Role} {fields : Fields} {b : Branch} {ns : List Node} :
    Opens role fields inner b → Converted inner (tokensIn fields) ns →
    Converted role [.dict fields] [.of b ns]
  | splice {role inner : Role} {fields : Fields} {ns : List Node} : Splices role fields inner →
    Converted inner (tokensIn fields) ns → Converted role [.dict fields] ns

/-! ### What a step has asked for -/

variable {fields : Fields} {v : Value} {vs : List Value} {n : Node} {ns : List Node}
  {log log' : List Record}

theorem forall_mem_pair {α : Type} {P : α → Prop} {a b : α} (ha : P a) (hb : P b) :
    ∀ x ∈ [a, b], P x :=
  List.forall_mem_cons.2 ⟨ha, List.forall_mem_singleton.2 hb⟩

theorem mem_of_lookup {α : Type} {name : String} {a : α} {table : List (String × α)}
    (h : List.lookup name table = some a) : (name, a) ∈ table := by
  obtain ⟨l, r, rfl, -⟩ := List.lookup_eq_some_iff.1 h
  simp

theorem type_eq_iff {name : String} (hname : name ≠ "") :
    (fields.getD "type").text? = some name ↔ typeName fields = name := by
  unfold typeName textField Fields.getD
  cases fields.get? "type" with
  | none => simp [Value.text?, hname.symm]
  | some v =>
    rw [Option.getD_some, Option.getD_some]
    cases v.text? with
    | none => simp [hname.symm]
    | some s => simp

theorem mem_inlineTypes {type : InlineType}
    (h : InlineType.ofValue? (textField fields "type") = .ok (some type)) :
    (typeName fields, type) ∈ InlineType.table := by
  unfold typeName
  cases hname : textField fields "type" with
  | str name =>
    rw [hname] at h
    exact mem_of_lookup (Except.ok.inj h)
  | _ =>
    rw [hname] at h
    cases h

theorem blockType_eq :
    BlockType.ofValue? (textField fields "type") = List.lookup (typeName fields) BlockType.names := by
  unfold BlockType.ofValue? typeName
  cases (textField fields "type").text? <;> rfl

theorem mem_blockTypes {type : BlockType}
    (h : BlockType.ofValue? (textField fields "type") = some type) :
    (typeName fields, type) ∈ BlockType.names := mem_of_lookup (blockType_eq ▸ h)

theorem textFor_eq_ok {method s : String} : textFor method v = .ok s ↔ v = .str s := by
  constructor
  · cases v <;> rintro ⟨⟩
    rfl
  · rintro rfl
    rfl

theorem fieldsOf_eq_ok : fieldsOf v = .ok fields ↔ v = .dict fields := by
  constructor
  · cases v <;> rintro ⟨⟩
    rfl
  · rintro rfl
    rfl

theorem tokensIn_of_list {items : List Value} (h : fields.get? "children" = some (.list items)) :
    tokensIn fields = items := by
  unfold tokensIn
  rw [h]

theorem tokensIn_eq_nil (h : ∀ items, fields.get? "children" ≠ some (.list items)) :
    tokensIn fields = [] := by
  unfold tokensIn
  split
  · next items hitems => exact absurd hitems (h items)
  · rfl

theorem forall_tokensIn {P : Value → Prop}
    (h : ∀ items, fields.get? "children" = some (.list items) → ∀ t ∈ items, P t) :
    ∀ t ∈ tokensIn fields, P t := by
  intro t ht
  unfold tokensIn at ht
  split at ht
  · next items hitems => exact h items hitems t ht
  · cases ht

/-- The children that a step is given are the tokens that the token holds. -/
theorem tokensIn_of_childTokens
    {items : { items : List Value // sizeOf items < sizeOf (Value.dict fields) }}
    (h : childTokens fields = .ok items) : tokensIn fields = items.1 := by
  unfold childTokens at h
  split at h
  · next hnone =>
    cases h
    exact tokensIn_eq_nil (by simp [hnone])
  · next hlist =>
    cases h
    exact tokensIn_of_list hlist
  · next hstr =>
    split_ifs at h
    cases h
    exact tokensIn_eq_nil (by simp [hstr])
  · next hdict =>
    split_ifs at h
    cases h
    exact tokensIn_eq_nil (by simp [hdict])
  · cases h

theorem listItems_eq : (listItems fields).1 = tokensIn fields := by
  unfold listItems
  split
  · next items hitems => exact (tokensIn_of_list hitems).symm
  · next h => exact (tokensIn_eq_nil h).symm

/-! ### Inline tokens -/

theorem becomes_of_noteReferenceNode
    (htype : InlineType.ofValue? (textField fields "type") = .ok (some .noteReference))
    (h : noteReferenceNode fields = .ok n) : ∃ l, Becomes .inline fields l ∧ n = .leaf l none := by
  unfold noteReferenceNode at h
  obtain ⟨key, hkey, hn⟩ := Runs.except_bind_eq_ok.1 h
  cases hn
  exact ⟨_, .noteReference htype (textFor_eq_ok.1 hkey), rfl⟩

theorem becomes_of_imageNode
    (htype : InlineType.ofValue? (textField fields "type") = .ok (some .image))
    (h : imageNode fields = .ok n) : ∃ l, Becomes .inline fields l ∧ n = .leaf l none := by
  unfold imageNode at h
  obtain ⟨alt, halt, h⟩ := Runs.except_bind_eq_ok.1 h
  dsimp only at h
  split_ifs at h with href
  · obtain ⟨key, hkey, hn⟩ := Runs.except_bind_eq_ok.1 h
    cases hn
    exact ⟨_, .imageReference htype halt href (textFor_eq_ok.1 hkey), rfl⟩
  · cases h
    exact ⟨_, .image htype halt (Bool.eq_false_iff.2 href), rfl⟩

theorem opens_of_linkNode
    (htype : InlineType.ofValue? (textField fields "type") = .ok (some .link))
    (h : linkNode fields ns = .ok n) :
    ∃ b, Opens .inline fields .inline b ∧ n = .of b ns := by
  unfold linkNode at h
  dsimp only at h
  split_ifs at h with href
  · obtain ⟨key, hkey, hn⟩ := Runs.except_bind_eq_ok.1 h
    cases hn
    exact ⟨_, .linkReference htype href (textFor_eq_ok.1 hkey), rfl⟩
  · cases h
    exact ⟨_, .link htype (Bool.eq_false_iff.2 href), rfl⟩

mutual

/-- **What an inline token has become is derived.** -/
theorem converted_inlineNode {v : Value} {n : Option Node} {log log' : List Record}
    (h : inlineNode v log = (.ok n, log')) : Converted .inline [v] n.toList := by
  match v with
  | .dict fields =>
    rw [inlineNode] at h
    obtain ⟨type, htype, h⟩ := Runs.lift_bind_eq_ok.1 h
    cases type with
    | none =>
      obtain ⟨-, s, -, h⟩ := Runs.bind_eq_ok.1 h
      obtain ⟨rfl, rfl⟩ := Runs.pure_eq_ok.1 h
      exact .vanish (.inline htype)
    | some type =>
      cases type with
      | literal k =>
        obtain ⟨rfl, rfl⟩ := Runs.pure_eq_ok.1 h
        exact .leaf (.literal htype)
      | softBreak =>
        obtain ⟨rfl, rfl⟩ := Runs.pure_eq_ok.1 h
        exact .leaf (.softBreak htype)
      | lineBreak =>
        obtain ⟨rfl, rfl⟩ := Runs.pure_eq_ok.1 h
        exact .leaf (.lineBreak htype)
      | container k =>
        obtain ⟨items, hitems, h⟩ := Runs.lift_bind_eq_ok.1 h
        obtain ⟨ns, s, hns, h⟩ := Runs.bind_eq_ok.1 h
        obtain ⟨rfl, rfl⟩ := Runs.pure_eq_ok.1 h
        have hinner := converted_inlineNodes hns
        rw [← tokensIn_of_childTokens hitems] at hinner
        exact .branch (.span htype) hinner
      | noteReference =>
        obtain ⟨m, hm, h⟩ := Runs.lift_bind_eq_ok.1 h
        obtain ⟨rfl, rfl⟩ := Runs.pure_eq_ok.1 h
        obtain ⟨l, hl, rfl⟩ := becomes_of_noteReferenceNode htype hm
        exact .leaf hl
      | link =>
        obtain ⟨items, hitems, h⟩ := Runs.lift_bind_eq_ok.1 h
        obtain ⟨ns, s, hns, h⟩ := Runs.bind_eq_ok.1 h
        obtain ⟨m, hm, h⟩ := Runs.lift_bind_eq_ok.1 h
        obtain ⟨rfl, rfl⟩ := Runs.pure_eq_ok.1 h
        have hinner := converted_inlineNodes hns
        rw [← tokensIn_of_childTokens hitems] at hinner
        obtain ⟨b, hb, rfl⟩ := opens_of_linkNode htype hm
        exact .branch hb hinner
      | image =>
        obtain ⟨m, hm, h⟩ := Runs.lift_bind_eq_ok.1 h
        obtain ⟨rfl, rfl⟩ := Runs.pure_eq_ok.1 h
        obtain ⟨l, hl, rfl⟩ := becomes_of_imageNode htype hm
        exact .leaf hl
  | .null | .bool _ | .int _ | .float _ | .str _ | .list _ =>
    rw [inlineNode] at h
    · cases h
    · exact nofun
termination_by sizeOf v
decreasing_by all_goals exact items.2

theorem converted_inlineNodes {vs : List Value} {ns : List Node} {log log' : List Record}
    (h : inlineNodes vs log = (.ok ns, log')) : Converted .inline vs ns := by
  cases vs with
  | nil =>
    rw [inlineNodes] at h
    obtain ⟨rfl, rfl⟩ := Runs.pure_eq_ok.1 h
    exact .nil
  | cons v r =>
    rw [inlineNodes] at h
    obtain ⟨n, s, hn, h⟩ := Runs.bind_eq_ok.1 h
    obtain ⟨ns, s, hns, h⟩ := Runs.bind_eq_ok.1 h
    obtain ⟨rfl, rfl⟩ := Runs.pure_eq_ok.1 h
    exact .cons (converted_inlineNode hn) (converted_inlineNodes hns)
termination_by sizeOf vs

end

theorem converted_inlineChildren (h : inlineChildren fields log = (.ok ns, log')) :
    Converted .inline (tokensIn fields) ns := by
  obtain ⟨items, hitems, h⟩ := Runs.lift_bind_eq_ok.1 h
  rw [tokensIn_of_childTokens hitems]
  exact converted_inlineNodes h

/-! ### Tables -/

theorem converted_cellNodes : ∀ {vs : List Value} {ns : List Node} {log log' : List Record},
    cellNodes vs log = (.ok ns, log') → Converted .cell vs ns
  | [], _, _, _, h => by
    obtain ⟨rfl, rfl⟩ := Runs.pure_eq_ok.1 h
    exact .nil
  | v :: r, _, _, _, h => by
    rw [cellNodes] at h
    obtain ⟨fields, hfields, hrun⟩ := Runs.lift_bind_eq_ok.1 h
    obtain rfl := fieldsOf_eq_ok.1 hfields
    split_ifs at hrun with hcell
    · obtain ⟨ns, s, hns, hrun⟩ := Runs.bind_eq_ok.1 hrun
      obtain ⟨rest, s, hrest, hrun⟩ := Runs.bind_eq_ok.1 hrun
      obtain ⟨rfl, rfl⟩ := Runs.pure_eq_ok.1 hrun
      have hone := Converted.branch (.cell hcell) (converted_inlineChildren hns)
      exact .cons hone (converted_cellNodes hrest)
    · exact .cons (.vanish (.cell hcell)) (converted_cellNodes hrun)

theorem converted_bodyRows : ∀ {vs : List Value} {ns : List Node} {log log' : List Record},
    bodyRows vs log = (.ok ns, log') → Converted .row vs ns
  | [], _, _, _, h => by
    obtain ⟨rfl, rfl⟩ := Runs.pure_eq_ok.1 h
    exact .nil
  | v :: r, _, _, _, h => by
    rw [bodyRows] at h
    obtain ⟨fields, hfields, hrun⟩ := Runs.lift_bind_eq_ok.1 h
    obtain rfl := fieldsOf_eq_ok.1 hfields
    obtain ⟨items, hitems, hrun⟩ := Runs.lift_bind_eq_ok.1 hrun
    obtain ⟨cells, s, hcells, hrun⟩ := Runs.bind_eq_ok.1 hrun
    obtain ⟨rest, s, hrest, hrun⟩ := Runs.bind_eq_ok.1 hrun
    obtain ⟨rfl, rfl⟩ := Runs.pure_eq_ok.1 hrun
    have hinner := converted_cellNodes hcells
    rw [← tokensIn_of_childTokens hitems] at hinner
    exact .cons (.branch .row hinner) (converted_bodyRows hrest)

theorem converted_tableRows : ∀ {vs align : List Value} {made : List Value × List Node}
    {log log' : List Record}, tableRows align vs log = (.ok made, log') →
      Converted .part vs made.2
  | [], _, _, _, _, h => by
    obtain ⟨rfl, rfl⟩ := Runs.pure_eq_ok.1 h
    exact .nil
  | v :: r, align, _, _, _, h => by
    rw [tableRows] at h
    obtain ⟨fields, hfields, hrun⟩ := Runs.lift_bind_eq_ok.1 h
    obtain rfl := fieldsOf_eq_ok.1 hfields
    split_ifs at hrun with hhead hbody
    · obtain ⟨items, hitems, hrun⟩ := Runs.lift_bind_eq_ok.1 hrun
      obtain ⟨own, -, hrun⟩ := Runs.lift_bind_eq_ok.1 hrun
      obtain ⟨cells, s, hcells, hrun⟩ := Runs.bind_eq_ok.1 hrun
      obtain ⟨rest, s, hrest, hrun⟩ := Runs.bind_eq_ok.1 hrun
      obtain ⟨rfl, rfl⟩ := Runs.pure_eq_ok.1 hrun
      have hinner := converted_cellNodes hcells
      rw [← tokensIn_of_childTokens hitems] at hinner
      exact .cons (.branch (.head hhead) hinner) (converted_tableRows hrest)
    · obtain ⟨items, hitems, hrun⟩ := Runs.lift_bind_eq_ok.1 hrun
      obtain ⟨body, s, hrows, hrun⟩ := Runs.bind_eq_ok.1 hrun
      obtain ⟨rest, s, hrest, hrun⟩ := Runs.bind_eq_ok.1 hrun
      obtain ⟨rfl, rfl⟩ := Runs.pure_eq_ok.1 hrun
      have hinner := converted_bodyRows hrows
      rw [← tokensIn_of_childTokens hitems] at hinner
      exact .cons (.splice (.body hbody) hinner) (converted_tableRows hrest)
    · exact .cons (.vanish (.part hhead hbody)) (converted_tableRows hrun)

theorem converted_tableNode (htype : BlockType.ofValue? (textField fields "type") = some .table)
    (h : tableNode fields log = (.ok n, log')) : Converted .block [.dict fields] [n] := by
  obtain ⟨parts, hparts, h⟩ := Runs.lift_bind_eq_ok.1 h
  obtain ⟨made, s, hmade, h⟩ := Runs.bind_eq_ok.1 h
  obtain ⟨rfl, rfl⟩ := Runs.pure_eq_ok.1 h
  have hinner := converted_tableRows hmade
  rw [← tokensIn_of_childTokens hparts] at hinner
  exact .branch (.table htype) hinner

/-! ### Blocks -/

theorem becomes_of_codeNode (htype : BlockType.ofValue? (textField fields "type") = some .code)
    (h : codeNode fields = .ok n) : ∃ l, Becomes .block fields l ∧ n = .leaf l none := by
  obtain ⟨raw, hraw, h⟩ := Runs.except_bind_eq_ok.1 h
  obtain ⟨lang, hlang, hn⟩ := Runs.except_bind_eq_ok.1 h
  cases hn
  exact ⟨_, .code htype (textFor_eq_ok.1 hraw) hlang, rfl⟩

theorem converted_headingNode
    (htype : BlockType.ofValue? (textField fields "type") = some .heading)
    (h : headingNode fields log = (.ok n, log')) : Converted .block [.dict fields] [n] := by
  unfold headingNode at h
  obtain ⟨ns, s, hns, h⟩ := Runs.bind_eq_ok.1 h
  obtain ⟨-, -, h⟩ := Runs.lift_bind_eq_ok.1 h
  obtain ⟨rfl, rfl⟩ := Runs.pure_eq_ok.1 h
  exact .branch (.heading htype) (converted_inlineChildren hns)

mutual

/-- **What a block has become is derived.** -/
theorem converted_blockNodes {v : Value} {ns : List Node} {log log' : List Record}
    (h : blockNodes v log = (.ok ns, log')) : Converted .block [v] ns := by
  match v with
  | .dict fields =>
    rw [blockNodes] at h
    cases htype : BlockType.ofValue? (textField fields "type") with
    | none =>
      rw [htype] at h
      obtain ⟨-, s, -, h⟩ := Runs.bind_eq_ok.1 h
      obtain ⟨rfl, rfl⟩ := Runs.pure_eq_ok.1 h
      exact .vanish (.block (by simp [htype]))
    | some type =>
      rw [htype] at h
      cases type with
      | heading =>
        obtain ⟨n, s, hn, h⟩ := Runs.bind_eq_ok.1 h
        obtain ⟨rfl, rfl⟩ := Runs.pure_eq_ok.1 h
        exact converted_headingNode htype hn
      | paragraph =>
        obtain ⟨ns, s, hns, h⟩ := Runs.bind_eq_ok.1 h
        obtain ⟨rfl, rfl⟩ := Runs.pure_eq_ok.1 h
        exact .branch (.paragraph htype) (converted_inlineChildren hns)
      | code =>
        obtain ⟨n, hn, h⟩ := Runs.lift_bind_eq_ok.1 h
        obtain ⟨rfl, rfl⟩ := Runs.pure_eq_ok.1 h
        obtain ⟨l, hl, rfl⟩ := becomes_of_codeNode htype hn
        exact .leaf hl
      | container k =>
        obtain ⟨items, hitems, h⟩ := Runs.lift_bind_eq_ok.1 h
        obtain ⟨ns, s, hns, h⟩ := Runs.bind_eq_ok.1 h
        obtain ⟨rfl, rfl⟩ := Runs.pure_eq_ok.1 h
        have hinner := converted_blockNodesEach hns
        rw [← tokensIn_of_childTokens hitems] at hinner
        exact .branch (.container htype) hinner
      | list =>
        obtain ⟨ns, s, hns, h⟩ := Runs.bind_eq_ok.1 h
        obtain ⟨rfl, rfl⟩ := Runs.pure_eq_ok.1 h
        have hinner := converted_itemNodes hns
        rw [listItems_eq] at hinner
        exact .branch (.list htype) hinner
      | table =>
        obtain ⟨n, s, hn, h⟩ := Runs.bind_eq_ok.1 h
        obtain ⟨rfl, rfl⟩ := Runs.pure_eq_ok.1 h
        exact converted_tableNode htype hn
      | thematicBreak =>
        obtain ⟨rfl, rfl⟩ := Runs.pure_eq_ok.1 h
        exact .leaf (.thematicBreak htype)
      | html =>
        obtain ⟨rfl, rfl⟩ := Runs.pure_eq_ok.1 h
        exact .leaf (.html htype)
      | math =>
        obtain ⟨raw, hraw, h⟩ := Runs.lift_bind_eq_ok.1 h
        obtain ⟨rfl, rfl⟩ := Runs.pure_eq_ok.1 h
        exact .leaf (.math htype (textFor_eq_ok.1 hraw))
      | notes =>
        obtain ⟨items, hitems, h⟩ := Runs.lift_bind_eq_ok.1 h
        have hinner := converted_noteNodes h
        rw [← tokensIn_of_childTokens hitems] at hinner
        exact .splice (.notes htype) hinner
      | blankLine =>
        obtain ⟨rfl, rfl⟩ := Runs.pure_eq_ok.1 h
        exact .vanish (.block (by simp [htype]))
  | .null | .bool _ | .int _ | .float _ | .str _ | .list _ =>
    rw [blockNodes] at h
    · cases h
    · exact nofun
termination_by sizeOf v
decreasing_by
  · exact items.2
  · exact (listItems fields).2
  · exact items.2

/-- **What a row of blocks has become is derived.** -/
theorem converted_blockNodesEach {vs : List Value} {ns : List Node} {log log' : List Record}
    (h : blockNodesEach vs log = (.ok ns, log')) : Converted .block vs ns := by
  match vs with
  | [] =>
    rw [blockNodesEach] at h
    obtain ⟨rfl, rfl⟩ := Runs.pure_eq_ok.1 h
    exact .nil
  | v :: r =>
    rw [blockNodesEach] at h
    obtain ⟨ms, s, hms, h⟩ := Runs.bind_eq_ok.1 h
    obtain ⟨rest, s, hrest, h⟩ := Runs.bind_eq_ok.1 h
    obtain ⟨rfl, rfl⟩ := Runs.pure_eq_ok.1 h
    exact .cons (converted_blockNodes hms) (converted_blockNodesEach hrest)
termination_by sizeOf vs

theorem converted_itemNodes {vs : List Value} {ns : List Node} {log log' : List Record}
    (h : itemNodes vs log = (.ok ns, log')) : Converted .item vs ns := by
  match vs with
  | [] =>
    rw [itemNodes] at h
    obtain ⟨rfl, rfl⟩ := Runs.pure_eq_ok.1 h
    exact .nil
  | .dict fields :: r =>
    rw [itemNodes] at h
    obtain ⟨items, hitems, h⟩ := Runs.lift_bind_eq_ok.1 h
    obtain ⟨ns, s, hns, h⟩ := Runs.bind_eq_ok.1 h
    obtain ⟨rest, s, hrest, h⟩ := Runs.bind_eq_ok.1 h
    obtain ⟨rfl, rfl⟩ := Runs.pure_eq_ok.1 h
    have hinner := converted_blockNodesEach hns
    rw [← tokensIn_of_childTokens hitems] at hinner
    exact .cons (.branch .item hinner) (converted_itemNodes hrest)
  | .null :: r | .bool _ :: r | .int _ :: r | .float _ :: r | .str _ :: r | .list _ :: r =>
    rw [itemNodes] at h
    · exact .cons (.vanish (.item (by simp))) (converted_itemNodes h)
    · exact nofun
termination_by sizeOf vs
decreasing_by
  · have h := items.2
    simp at h ⊢
    omega
  all_goals simp only [List.cons.sizeOf_spec, Value.dict.sizeOf_spec]; omega

theorem converted_noteNodes {vs : List Value} {ns : List Node} {log log' : List Record}
    (h : noteNodes vs log = (.ok ns, log')) : Converted .note vs ns := by
  match vs with
  | [] =>
    rw [noteNodes] at h
    obtain ⟨rfl, rfl⟩ := Runs.pure_eq_ok.1 h
    exact .nil
  | .dict fields :: r =>
    rw [noteNodes] at h
    split_ifs at h with hnote
    · obtain ⟨attrs, hattrs, h⟩ := Runs.lift_bind_eq_ok.1 h
      obtain ⟨key, hkey, h⟩ := Runs.lift_bind_eq_ok.1 h
      obtain ⟨items, hitems, h⟩ := Runs.lift_bind_eq_ok.1 h
      obtain ⟨ns, s, hns, h⟩ := Runs.bind_eq_ok.1 h
      obtain ⟨rest, s, hrest, h⟩ := Runs.bind_eq_ok.1 h
      obtain ⟨rfl, rfl⟩ := Runs.pure_eq_ok.1 h
      have hinner := converted_blockNodesEach hns
      rw [← tokensIn_of_childTokens hitems] at hinner
      have hopens := Opens.note hnote hattrs (textFor_eq_ok.1 hkey)
      exact .cons (.branch hopens hinner) (converted_noteNodes hrest)
    · exact .cons (.vanish (.note hnote)) (converted_noteNodes h)
  | .null :: _ | .bool _ :: _ | .int _ :: _ | .float _ :: _ | .str _ :: _ | .list _ :: _ =>
    rw [noteNodes] at h
    · cases h
    · exact nofun
termination_by sizeOf vs
decreasing_by
  · have h := items.2
    simp at h ⊢
    omega
  all_goals simp only [List.cons.sizeOf_spec, Value.dict.sizeOf_spec]; omega

end

/-! ### The document -/

/-- The blocks that are handed over; tokens that are no row are none. -/
def Tokens.items (given : Tokens) : List Value :=
  match given.tokens with
  | .list items => items
  | _ => []

theorem converted_blocks {given : Tokens} (h : given.blocks log = (.ok ns, log')) :
    Converted .block given.items ns := by
  obtain ⟨tokens, env⟩ := given
  cases tokens with
  | list items => exact converted_blockNodesEach h
  | _ =>
    obtain ⟨rfl, rfl⟩ := Runs.pure_eq_ok.1 h
    exact .nil

section Read
variable {tokenizer : Extensions → String → Except String Tokens} {o : MarkdownOptions}
  {text : String}

theorem read_eq {given : Tokens} (h : tokenizer o.extensions (o.splitFront text).2 = .ok given) :
    read tokenizer o text = given.document (o.splitFront text).1 := by
  unfold read
  dsimp only
  rw [h]

theorem eq_literal_of_front {n : Node} (h : n ∈ (o.splitFront text).1) :
    ∃ k v, n = .literal k v ∧ (k = .yaml ∨ k = .toml) := by
  unfold MarkdownOptions.splitFront at h
  split_ifs at h
  · dsimp only at h
    unfold FrontMatter.split at h
    split at h
    · next kind value rest hfound =>
      obtain rfl := Option.mem_some.1 h
      obtain ⟨⟨fence, k⟩, hmem, hk⟩ := List.exists_of_findSome?_eq_some hfound
      dsimp only at hk
      split_ifs at hk
      obtain ⟨r, -, hr⟩ := Option.map_eq_some_iff.1 hk
      cases hr
      refine ⟨_, _, rfl, ?_⟩
      simp only [FrontMatter.fences, List.mem_cons, Prod.mk.injEq, List.not_mem_nil, or_false] at hmem
      exact hmem.imp And.right And.right
    · cases h
  · cases h

/-- **A document that is made of a text**: the node of the front matter, what the blocks are converted
to, and the link definitions of the environment. -/
theorem converted_read {root : Node} (h : read tokenizer o text log = (.ok root, log')) :
    ∃ given ns links, tokenizer o.extensions (o.splitFront text).2 = .ok given ∧
      Converted .block given.items ns ∧ linkFields given.env = .ok links ∧
      root = .container .root ((o.splitFront text).1.toList ++
        (ns ++ (links.filterMap linkDefinition?).map LinkDefinition.node)) := by
  cases hgiven : tokenizer o.extensions (o.splitFront text).2 with
  | error why =>
    unfold read at h
    dsimp only at h
    rw [hgiven] at h
    cases h
  | ok given =>
    rw [read_eq hgiven] at h
    obtain ⟨ns, s, hns, h⟩ := Runs.bind_eq_ok.1 h
    obtain ⟨ds, hds, h⟩ := Runs.lift_bind_eq_ok.1 h
    obtain ⟨links, hlinks, hds⟩ := Runs.except_bind_eq_ok.1 hds
    cases hds
    obtain ⟨-, s, -, h⟩ := Runs.bind_eq_ok.1 h
    obtain ⟨rfl, rfl⟩ := Runs.pure_eq_ok.1 h
    exact ⟨given, ns, links, rfl, converted_blocks hns, hlinks, rfl⟩

end Read

end Bulletin.Markdown.Handed
