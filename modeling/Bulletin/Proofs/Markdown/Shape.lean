import Bulletin.Markdown.Handed
import Bulletin.Proofs.Markdown.Typed
import Bulletin.Proofs.Runs

/-! # The shape of handed over tokens

A tokenizer gives tokens a shape: their children are tokens, and their fields hold texts where they
hold anything. Of the levels of headings, the numbers at which lists start and the alignments of cells
nothing is said. The link definitions of an environment hold texts as their places.

What is made of such tokens are trees that hold texts and whose headings have levels from 1 to 6.

* `Shaped`, `isEnvironment`: what a tokenizer gives; what a step asks of it is there
  (`Shaped.childTokens`, `linkDefinitions_eq`).
* `Filled`: the trees. -/

namespace Bulletin.Markdown.Handed

open Mdast (Node Leaf Branch)
open Bulletin.Proofs

variable {fields : Fields} {v : Value}

/-! ### The shape of tokens -/

/-- Whether a value is a text or null. -/
def isTextOrNull (v : Value) : Bool := v.isText || v.isNull

/-- Whether a field holds a text, if it is there. -/
def textIfGiven (fields : Fields) (key : String) : Bool := (fields.get? key).all Value.isText

/-- Whether a field holds a text or null, if it is there. -/
def textOrNullIfGiven (fields : Fields) (key : String) : Bool := (fields.get? key).all isTextOrNull

/-- Whether the attributes of a token are an object that holds texts. -/
def areAttributes : Value → Bool
  | .dict attrs =>
    textIfGiven attrs "url" && textIfGiven attrs "key" && textIfGiven attrs "label" &&
      textOrNullIfGiven attrs "title" && textOrNullIfGiven attrs "info"
  | _ => false

/-- Whether a value is a row. -/
def isRow : Value → Bool
  | .list _ => true
  | _ => false

/-- **Whether the fields of a token hold what a tokenizer gives**: texts, a row of children, and
attributes. -/
def isFielded (fields : Fields) : Bool :=
  textIfGiven fields "type" && textIfGiven fields "raw" && textIfGiven fields "ref" &&
    textOrNullIfGiven fields "label" && (fields.get? "children").all isRow &&
    (fields.get? "attrs").all areAttributes

/-- **A token in the shape that a tokenizer gives it**, with its children. -/
inductive Shaped : Value → Prop
  | mk (fields : Fields) : isFielded fields = true →
    (∀ items, fields.get? "children" = some (.list items) → ∀ t ∈ items, Shaped t) →
    Shaped (.dict fields)

theorem Shaped.leaf (h : isFielded fields = true) (hnone : fields.get? "children" = none) :
    Shaped (.dict fields) := .mk fields h fun items hitems => by
  rw [hnone] at hitems
  cases hitems

theorem Shaped.branch {items : List Value} (h : isFielded fields = true)
    (hitems : fields.get? "children" = some (.list items)) (hall : ∀ t ∈ items, Shaped t) :
    Shaped (.dict fields) := .mk fields h fun items' hitems' => by
  rw [hitems] at hitems'
  cases hitems'
  exact hall

theorem eq_str_of_isText (h : v.isText = true) : ∃ s, v = .str s := by
  cases v <;> first | exact ⟨_, rfl⟩ | cases h

theorem isTextOrNull_getD {key : String} (h : textOrNullIfGiven fields key = true) :
    isTextOrNull (fields.getD key) = true := by
  unfold textOrNullIfGiven at h
  unfold Fields.getD
  cases hv : fields.get? key with
  | none => rfl
  | some v =>
    rw [hv] at h
    exact h

theorem textField_eq {key : String} (h : textIfGiven fields key = true) :
    ∃ s, textField fields key = .str s := by
  unfold textIfGiven at h
  unfold textField
  cases hv : fields.get? key with
  | none => exact ⟨"", rfl⟩
  | some v =>
    rw [hv] at h
    exact eq_str_of_isText h

theorem getD_eq_of_truthy {key : String} (h : textIfGiven fields key = true)
    (ht : (fields.getD key).truthy = true) : ∃ s, fields.getD key = .str s := by
  unfold textIfGiven at h
  unfold Fields.getD at ht ⊢
  cases hv : fields.get? key with
  | none =>
    rw [hv] at ht
    cases ht
  | some v =>
    rw [hv] at h
    exact eq_str_of_isText h

section Fielded
variable (h : isFielded fields = true)
include h

theorem isFielded_iff : textIfGiven fields "type" = true ∧ textIfGiven fields "raw" = true ∧
    textIfGiven fields "ref" = true ∧ textOrNullIfGiven fields "label" = true ∧
    (fields.get? "children").all isRow = true ∧
    (fields.get? "attrs").all areAttributes = true := by
  simpa [isFielded, and_assoc] using h

theorem areAttributes_attributes : areAttributes (.dict (attributes fields)) = true := by
  obtain ⟨-, -, -, -, -, hattrs⟩ := isFielded_iff h
  unfold attributes Fields.getD
  cases hv : fields.get? "attrs" with
  | none => rfl
  | some v =>
    rw [hv] at hattrs
    cases v <;> first | exact hattrs | cases hattrs

theorem attributesOf_eq : attributesOf fields = .ok (attributes fields) := by
  obtain ⟨-, -, -, -, -, hattrs⟩ := isFielded_iff h
  unfold attributesOf attributes Fields.getD
  cases hv : fields.get? "attrs" with
  | none => rfl
  | some v =>
    rw [hv] at hattrs
    cases v <;> first | rfl | cases hattrs

theorem children_cases : fields.get? "children" = none ∨
    ∃ items, fields.get? "children" = some (.list items) := by
  obtain ⟨-, -, -, -, hrow, -⟩ := isFielded_iff h
  cases hv : fields.get? "children" with
  | none => exact .inl rfl
  | some v =>
    rw [hv] at hrow
    cases v <;> first | exact .inr ⟨_, rfl⟩ | cases hrow

/-- **The children of a token are there.** -/
theorem childTokens_eq : ∃ items, childTokens fields = .ok items ∧
    ∀ t ∈ items.1, ∃ l, fields.get? "children" = some (.list l) ∧ t ∈ l := by
  unfold childTokens
  rcases children_cases h with hnone | ⟨items, hitems⟩
  · split <;> simp_all
  · split <;> simp_all

theorem plainItems_eq : ∃ items, plainItems fields = .ok items ∧
    ∀ t ∈ items.1, ∃ l, fields.get? "children" = some (.list l) ∧ t ∈ l := by
  unfold plainItems
  rcases children_cases h with hnone | ⟨items, hitems⟩
  · split <;> simp_all
  · split <;> simp_all

end Fielded

theorem areAttributes_iff {attrs : Fields} : areAttributes (.dict attrs) = true ↔
    textIfGiven attrs "url" = true ∧ textIfGiven attrs "key" = true ∧
      textIfGiven attrs "label" = true ∧ textOrNullIfGiven attrs "title" = true ∧
      textOrNullIfGiven attrs "info" = true := by
  simp [areAttributes, and_assoc]

theorem Shaped.childTokens (h : Shaped (.dict fields)) :
    ∃ items, childTokens fields = .ok items ∧ ∀ t ∈ items.1, Shaped t := by
  obtain ⟨_, hf, hall⟩ := h
  obtain ⟨items, hitems, hmem⟩ := childTokens_eq hf
  refine ⟨items, hitems, fun t ht => ?_⟩
  obtain ⟨l, hl, htl⟩ := hmem t ht
  exact hall l hl t htl

theorem Shaped.eq_dict (h : Shaped v) : ∃ fields, v = .dict fields ∧ isFielded fields = true := by
  obtain ⟨fields, hf, -⟩ := h
  exact ⟨fields, rfl, hf⟩

/-! ### The environment -/

/-- **Whether an environment holds what a tokenizer gives**: the link definitions, if there are any, are
an object, and those of them that are objects hold a text as their `url`, if they have one. -/
def isEnvironment (env : Value) : Bool :=
  match env.orElse (.dict []) with
  | .dict fields =>
    match (Fields.getD fields "ref_links").orElse (.dict []) with
    | .dict links => links.all fun (_, v) => v.fields?.all (textIfGiven · "url")
    | _ => false
  | _ => false

theorem linkFields_eq {env : Value} (h : isEnvironment env = true) :
    ∃ links, linkFields env = .ok links ∧
      ∀ link ∈ links, (link.2.fields?.all (textIfGiven · "url")) = true := by
  unfold isEnvironment at h
  unfold linkFields
  cases henv : env.orElse (.dict []) with
  | dict fields =>
    rw [henv] at h
    rw [fieldsOf, Runs.except_ok_bind]
    dsimp only at h ⊢
    cases hlinks : (Fields.getD fields "ref_links").orElse (.dict []) with
    | dict links =>
      rw [hlinks] at h
      exact ⟨links, rfl, List.all_eq_true.1 h⟩
    | _ =>
      rw [hlinks] at h
      cases h
  | _ =>
    rw [henv] at h
    cases h

/-- **The link definitions of an environment are there**, and their places are texts. -/
theorem linkDefinitions_eq {env : Value} (h : isEnvironment env = true) :
    ∃ ds, linkDefinitions env = .ok ds ∧ ∀ d ∈ ds, d.url.isText = true := by
  obtain ⟨links, hlinks, hall⟩ := linkFields_eq h
  refine ⟨links.filterMap linkDefinition?, by rw [linkDefinitions, hlinks]; rfl, fun d hd => ?_⟩
  obtain ⟨link, hlink, hd⟩ := List.mem_filterMap.1 hd
  obtain ⟨attrs, hattrs, rfl⟩ := Option.map_eq_some_iff.1 hd
  have hurl := hall link hlink
  rw [hattrs] at hurl
  obtain ⟨s, hs⟩ := textField_eq hurl
  show (textField attrs "url").isText = true
  rw [hs]
  rfl

/-! ### Nodes that hold texts -/

/-- Whether what a leaf carries are texts. -/
def leafIsFilled : Leaf → Bool
  | .literal _ v => v.isText
  | .code v lang => v.isText && isTextOrNull lang
  | .thematicBreak => true
  | .lineBreak => true
  | .image url alt title => url.isText && alt.isText && isTextOrNull title
  | .footnoteReference identifier label => identifier.isText && isTextOrNull label
  | .definition d =>
    d.identifier.isText && d.url.isText && isTextOrNull d.title && isTextOrNull d.label
  | .imageReference identifier alt label =>
    identifier.isText && alt.isText && isTextOrNull label
  | .foreign .. => false

/-- Whether what a branch carries are texts, and the level of a heading lies between 1 and 6. -/
def branchIsFilled : Branch → Bool
  | .container _ => true
  | .heading level => level.whole?.any fun n => 1 ≤ n && n ≤ 6
  | .list .. => true
  | .table _ => true
  | .link url title => url.isText && isTextOrNull title
  | .footnoteDefinition identifier label => identifier.isText && isTextOrNull label
  | .linkReference identifier label => identifier.isText && isTextOrNull label

/-- Whether what a node carries are texts, and the level of a heading lies between 1 and 6. -/
def isFilled : Node → Bool
  | .leaf l _ => leafIsFilled l
  | .branch b _ _ => branchIsFilled b

/-- **A tree that holds texts and whose headings have levels from 1 to 6.** -/
def Filled (n : Node) : Prop := n.All fun m => isFilled m = true

theorem filled_leaf {l : Leaf} (h : leafIsFilled l = true) : Filled (.leaf l none) :=
  Node.all_leaf.2 h

theorem filled_of {b : Branch} {ns : List Node} (h : branchIsFilled b = true)
    (hns : ∀ n ∈ ns, Filled n) : Filled (.of b ns) := Node.all_branch.2 ⟨h, hns⟩

theorem Filled.textual {n : Node} (h : Filled n) : n.Textual := by
  intro m hm
  have hfilled := h m hm
  cases m with
  | branch b ns p => rfl
  | leaf l p =>
    cases l with
    | literal k v =>
      obtain ⟨s, rfl⟩ := eq_str_of_isText hfilled
      rfl
    | _ => rfl

end Bulletin.Markdown.Handed
