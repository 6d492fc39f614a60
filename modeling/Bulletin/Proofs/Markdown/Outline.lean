import Bulletin.Mdast.Piece
import Bulletin.Proofs.Markdown.Handed
import Bulletin.Proofs.Markdown.Rules

/-! # What is kept of a Markdown text

The tokens of a text are a forest, and so are the nodes that they are converted to. By the type of a
token it is said what stands for it (`Form`): a text, a mark without one, an image with the text of all
that is in it, a node around what stands for its children, or only these. What stands for a forest is
its outline, and its texts are read in order.

The conversion keeps the outline and the texts, so it loses no text, doubles none and changes no order,
with one exception. A formula on display (`block_math`) may stand between the tokens of running text; it
is known as a block only, and there it is left out.

* `Role.forms`: what stands for each type of token. `Arranged`: a token with all that it holds.
* `sketch`, `texts`, `displays`: the outline of tokens, their texts, and the formulas that are left out.
* `blocks_kept`: what is kept of the blocks of a text. -/

namespace Bulletin.Markdown.Handed

open Mdast (Node Leaf Branch)
open Bulletin.Proofs

/-! ### Outlines -/

/-- **The outline of a document**: the kinds of its nodes and how they stand in each other, with the
texts of those that have one. -/
inductive Outline where
  | text (kind : String) (value : Value)
  | image (kind : String) (alt : Value)
  | mark (kind : String)
  | branch (kind : String) (parts : List Outline)
  deriving Inhabited, Repr

/-- The outline of a leaf. -/
def leafOutline : Leaf → Outline
  | .literal k v => .text k.className v
  | .code v lang => .text (Leaf.code v lang).className v
  | .image url alt title => .image (Leaf.image url alt title).className alt
  | .imageReference id alt label => .image (Leaf.imageReference id alt label).className alt
  | l => .mark l.className

mutual

/-- The outline of a tree. -/
def outline : Node → Outline
  | .leaf l _ => leafOutline l
  | .branch b ns _ => .branch (Mdast.Piece.branchName b) (outlines ns)

/-- The outlines of a row of trees. -/
def outlines : List Node → List Outline
  | [] => []
  | n :: ns => outline n :: outlines ns

end

/-- The value of a leaf that is a literal. -/
def literal? : Node → Option Value
  | .leaf (.literal _ v) _ => some v
  | .leaf (.code v _) _ => some v
  | _ => none

/-- The values of the literals of a row of trees, in the order of the document. -/
def literals (ns : List Node) : List Value := (Node.subtreesEach ns).filterMap literal?

/-! ### What stands for a token -/

/-- **What stands for a token** of a type. -/
inductive Form where
  /-- Nothing. -/
  | nothing
  /-- A formula on display between tokens of running text. -/
  | display
  /-- A literal, whose value is the text of the token in another way of writing. -/
  | text (kind : String) (written : String → String)
  /-- A leaf without a text. -/
  | mark (kind : String)
  /-- An image, or a reference to one. -/
  | image
  /-- A link, or a reference to one, around what stands for its children. -/
  | link
  /-- A node around what stands for its children. -/
  | branch (kind : String) (inner : Role)
  /-- What stands for its children, without a node around it. -/
  | splice (inner : Role)

/-- The forms of the types of tokens, where they stand. -/
def Role.forms : Role → List (String × Form)
  | .block => [("heading", .branch "Heading" .inline), ("paragraph", .branch "Paragraph" .inline),
      ("block_text", .branch "Paragraph" .inline), ("block_code", .text "Code" dropLastBreak),
      ("block_quote", .branch "BlockQuote" .block), ("list", .branch "List" .item),
      ("list_item", .branch "ListItem" .block), ("task_list_item", .branch "ListItem" .block),
      ("table", .branch "Table" .part), ("thematic_break", .mark "ThematicBreak"),
      ("block_html", .text "Html" id), ("block_math", .text "Math" trimBreaks),
      ("footnotes", .splice .note), ("blank_line", .nothing)]
  | .item => [("list_item", .branch "ListItem" .block), ("task_list_item", .branch "ListItem" .block)]
  | .note => [("footnote_item", .branch "FootnoteDefinition" .block)]
  | .part => [("table_head", .branch "TableRow" .cell), ("table_body", .splice .row)]
  | .row => [("table_row", .branch "TableRow" .cell)]
  | .cell => [("table_cell", .branch "TableCell" .inline)]
  | .inline => [("text", .text "Text" id), ("softbreak", .text "Text" fun _ => "\n"),
      ("linebreak", .mark "Break"), ("strong", .branch "Strong" .inline),
      ("emphasis", .branch "Emphasis" .inline), ("strikethrough", .branch "Delete" .inline),
      ("codespan", .text "InlineCode" id), ("inline_math", .text "InlineMath" id),
      ("inline_html", .text "Html" id), ("footnote_ref", .mark "FootnoteReference"), ("link", .link),
      ("image", .image), ("block_math", .display)]

/-- The role of the tokens in a token. -/
def Form.inner : Form → Role
  | .branch _ inner => inner
  | .splice inner => inner
  | _ => .inline

/-- The text of a token, empty if it has none. -/
def rawText (fields : Fields) : String := ((textField fields "raw").text?).getD ""

/-- The form of a token where it stands, none for a type that does not stand there. -/
def Role.form? (role : Role) (fields : Fields) : Option Form :=
  List.lookup (typeName fields) role.forms

/-- **A token of a known type with all that it holds**: it has the fields that a tokenizer gives, its
type stands where it does, and so do the types of the tokens in it. -/
inductive Arranged : Role → Value → Prop
  | mk {role : Role} {fields : Fields} {form : Form} : isFielded fields = true →
    role.form? fields = some form → (∀ t ∈ tokensIn fields, Arranged form.inner t) →
    Arranged role (.dict fields)

theorem sizeOf_tokensIn_lt (fields : Fields) :
    sizeOf (tokensIn fields) < sizeOf (Value.dict fields) := by
  rw [← listItems_eq]
  exact (listItems fields).2

mutual

/-- What is read off a token of a known type, given what is read off the tokens in it. -/
def walk {α : Type} (step : Form → Fields → List α → List α) (role : Role) (v : Value) : List α :=
  match v with
  | .dict fields =>
    match role.form? fields with
    | some form => step form fields (walkEach step form.inner (tokensIn fields))
    | none => []
  | _ => []
termination_by sizeOf v
decreasing_by exact sizeOf_tokensIn_lt fields

/-- What is read off a row of tokens. -/
def walkEach {α : Type} (step : Form → Fields → List α → List α) (role : Role) (vs : List Value) :
    List α :=
  match vs with
  | [] => []
  | v :: r => walk step role v ++ walkEach step role r
termination_by sizeOf vs

end

mutual

/-- The plain text of all that stands in a token: a soft line break is a space. -/
def flatText (v : Value) : String :=
  match v with
  | .dict fields =>
    if Fields.has fields "children" then flatTextEach (tokensIn fields)
    else if typeName fields = "softbreak" then " "
    else rawText fields
  | _ => ""
termination_by sizeOf v
decreasing_by exact sizeOf_tokensIn_lt fields

/-- The plain text of a row of tokens. -/
def flatTextEach (vs : List Value) : String :=
  match vs with
  | [] => ""
  | v :: r => flatText v ++ flatTextEach r
termination_by sizeOf vs

end

/-- The kind of a node that is a reference if its token names one. -/
def kindOf (plain reference : String) (fields : Fields) : String :=
  if (fields.getD "ref").truthy then reference else plain

/-- The outline of a token, with the formulas on display in running text if these are `kept`. -/
def sketchStep (kept : Bool) (form : Form) (fields : Fields) (inner : List Outline) : List Outline :=
  match form with
  | .nothing => []
  | .display => if kept then [.text "Math" (.str (trimBreaks (rawText fields)))] else []
  | .text kind written => [.text kind (.str (written (rawText fields)))]
  | .mark kind => [.mark kind]
  | .image =>
    [.image (kindOf "Image" "ImageReference" fields) (.str (flatTextEach (tokensIn fields)))]
  | .link => [.branch (kindOf "Link" "LinkReference" fields) inner]
  | .branch kind _ => [.branch kind inner]
  | .splice _ => inner

/-- The texts of a token outside of images. -/
def textStep (kept : Bool) (form : Form) (fields : Fields) (inner : List String) : List String :=
  match form with
  | .display => if kept then [trimBreaks (rawText fields)] else []
  | .text _ written => [written (rawText fields)]
  | .link | .branch .. | .splice _ => inner
  | .nothing | .mark _ | .image => []

/-- The formulas on display that stand in running text outside of images. -/
def displayStep (form : Form) (fields : Fields) (inner : List String) : List String :=
  match form with
  | .display => [trimBreaks (rawText fields)]
  | .link | .branch .. | .splice _ => inner
  | .nothing | .text .. | .mark _ | .image => []

/-- **The outline of a row of tokens.** -/
def sketch (kept : Bool) (role : Role) (vs : List Value) : List Outline :=
  walkEach (sketchStep kept) role vs

/-- **The texts of a row of tokens** outside of images, in order. -/
def texts (kept : Bool) (role : Role) (vs : List Value) : List String :=
  walkEach (textStep kept) role vs

/-- The formulas on display in the running text of a row of tokens. -/
def displays (role : Role) (vs : List Value) : List String := walkEach displayStep role vs

section Walk
variable {α : Type} {step : Form → Fields → List α → List α} {kept : Bool} {role : Role} {v : Value}
  {vs : List Value} {fields : Fields} {form : Form}

theorem walkEach_nil : walkEach step role [] = [] := by rw [walkEach]

theorem walkEach_cons :
    walkEach step role (v :: vs) = walkEach step role [v] ++ walkEach step role vs := by
  simp [walkEach]

theorem walkEach_dict (h : role.form? fields = some form) :
    walkEach step role [.dict fields] =
      step form fields (walkEach step form.inner (tokensIn fields)) := by
  rw [walkEach, walk, h, walkEach_nil, List.append_nil]

@[simp] theorem sketch_nil : sketch kept role [] = [] := walkEach_nil

theorem sketch_cons (kept : Bool) :
    sketch kept role (v :: vs) = sketch kept role [v] ++ sketch kept role vs := walkEach_cons

theorem sketch_dict (h : role.form? fields = some form) : sketch kept role [.dict fields] =
    sketchStep kept form fields (sketch kept form.inner (tokensIn fields)) := walkEach_dict h

@[simp] theorem texts_nil : texts kept role [] = [] := walkEach_nil

theorem texts_cons (kept : Bool) :
    texts kept role (v :: vs) = texts kept role [v] ++ texts kept role vs := walkEach_cons

theorem texts_dict (h : role.form? fields = some form) : texts kept role [.dict fields] =
    textStep kept form fields (texts kept form.inner (tokensIn fields)) := walkEach_dict h

@[simp] theorem displays_nil : displays role [] = [] := walkEach_nil

theorem displays_cons : displays role (v :: vs) = displays role [v] ++ displays role vs :=
  walkEach_cons

theorem displays_dict (h : role.form? fields = some form) : displays role [.dict fields] =
    displayStep form fields (displays form.inner (tokensIn fields)) := walkEach_dict h

end Walk

/-! ### Outlines and literals of rows -/

section Rows
variable {l : Leaf} {b : Branch} {ms ns : List Node}

theorem outlines_append : ∀ ms : List Node, outlines (ms ++ ns) = outlines ms ++ outlines ns
  | [] => rfl
  | m :: ms => congrArg (outline m :: ·) (outlines_append ms)

theorem literals_append : literals (ms ++ ns) = literals ms ++ literals ns := by
  have hsub : ∀ ms : List Node,
      Node.subtreesEach (ms ++ ns) = Node.subtreesEach ms ++ Node.subtreesEach ns := by
    intro ms
    induction ms with
    | nil => rfl
    | cons m ms ih =>
      rw [List.cons_append, Node.subtreesEach, ih, Node.subtreesEach, List.append_assoc]
  rw [literals, hsub, List.filterMap_append]
  rfl

theorem literals_leaf : literals [.leaf l none] = (literal? (.leaf l none)).toList := by
  cases h : literal? (.leaf l none) <;>
    simp [literals, Node.subtreesEach, Node.subtrees, h]

theorem literals_branch : literals [.of b ns] = literals ns := by
  unfold literals Node.of
  rw [Node.subtreesEach, Node.subtrees, Node.subtreesEach, List.append_nil]
  exact List.filterMap_cons_none rfl

end Rows

/-! ### Plain texts -/

section Plain
variable {fields : Fields} {v : Value}

theorem tokensIn_of_plainItems
    {items : { items : List Value // sizeOf items < sizeOf (Value.dict fields) }}
    (h : plainItems fields = .ok items) : tokensIn fields = items.1 := by
  unfold plainItems at h
  split at h
  · next hlist =>
    cases h
    exact tokensIn_of_list hlist
  · next hnone =>
    cases h
    exact tokensIn_eq_nil (by simp [hnone])
  · next hstr =>
    cases h
    exact tokensIn_eq_nil (by simp [hstr])
  · next hdict =>
    cases h
    exact tokensIn_eq_nil (by simp [hdict])
  · cases h

theorem plainTexts_flatText : ∀ {vs : List Value}, (∀ v ∈ vs, plainText v = .ok (.str (flatText v))) →
    plainTexts vs = .ok (vs.map (.str <| flatText ·))
  | [], _ => by rw [plainTexts]; rfl
  | v :: vs, h => by
    obtain ⟨hv, hvs⟩ := List.forall_mem_cons.1 h
    rw [plainTexts, hv, Runs.except_ok_bind, plainTexts_flatText hvs]
    rfl

theorem joinTexts_flatText : ∀ (vs : List Value) (i : ℕ),
    Page.joinTexts i (vs.map (.str <| flatText ·)) = .ok (flatTextEach vs)
  | [], _ => by rw [flatTextEach]; rfl
  | v :: vs, i => by
    rw [List.map_cons, Page.joinTexts, joinTexts_flatText vs, flatTextEach]
    rfl

theorem plainChildren_flatText (hf : isFielded fields = true)
    (h : ∀ v ∈ tokensIn fields, plainText v = .ok (.str (flatText v))) :
    plainChildren fields = .ok (flatTextEach (tokensIn fields)) := by
  obtain ⟨items, hitems, -⟩ := plainItems_eq hf
  rw [plainChildren, hitems, Runs.except_ok_bind, ← tokensIn_of_plainItems hitems, plainTexts_flatText h,
    Runs.except_ok_bind, joinTexts_flatText]
  rfl

theorem eq_str_typeName (hf : isFielded fields = true) :
    textField fields "type" = .str (typeName fields) := by
  obtain ⟨name, hname⟩ := textField_eq (isFielded_iff hf).1
  simp [typeName, hname, Value.text?]

theorem eq_str_rawText (hf : isFielded fields = true) :
    textField fields "raw" = .str (rawText fields) := by
  obtain ⟨raw, hraw⟩ := textField_eq (isFielded_iff hf).2.1
  simp [rawText, hraw, Value.text?]

/-- **The plain text of a token** is that of all that stands in it. -/
theorem plainText_flatText (h : Shaped v) : plainText v = .ok (.str (flatText v)) := by
  induction h with
  | mk fields hf hall ih =>
    have hchildren := plainChildren_flatText hf (forall_tokensIn ih)
    rw [plainText, flatText]
    split_ifs with hhas htype hname hname
    · rw [hchildren]
      rfl
    · rfl
    · exact absurd ((type_eq_iff (by decide)).1 htype) hname
    · exact absurd ((type_eq_iff (by decide)).2 hname) htype
    · rw [eq_str_rawText hf]

end Plain

/-! ### The forms of the types -/

section Forms
variable {fields : Fields}

/-- What stands for an inline token of a type. -/
def InlineType.form : InlineType → Form
  | .literal k => .text k.className id
  | .container k => .branch k.className .inline
  | .softBreak => .text "Text" fun _ => "\n"
  | .lineBreak => .mark "Break"
  | .noteReference => .mark "FootnoteReference"
  | .link => .link
  | .image => .image

/-- What stands for a block of a type. -/
def BlockType.form : BlockType → Form
  | .heading => .branch "Heading" .inline
  | .paragraph => .branch "Paragraph" .inline
  | .code => .text "Code" dropLastBreak
  | .container k => .branch k.className .block
  | .list => .branch "List" .item
  | .table => .branch "Table" .part
  | .thematicBreak => .mark "ThematicBreak"
  | .html => .text "Html" id
  | .math => .text "Math" trimBreaks
  | .notes => .splice .note
  | .blankLine => .nothing

theorem lookup_map {α β : Type} (f : α → β) (name : String) : ∀ table : List (String × α),
    List.lookup name (table.map fun p => (p.1, f p.2)) = (List.lookup name table).map f
  | [] => rfl
  | (key, a) :: table => by
    rw [List.map_cons, List.lookup_cons, List.lookup_cons, lookup_map f name table]
    cases name == key <;> rfl

/-- **The types of blocks** are those that the conversion knows, with their forms. -/
theorem form_block : Role.block.form? fields =
    (BlockType.ofValue? (.str (typeName fields))).map BlockType.form :=
  lookup_map BlockType.form (typeName fields) BlockType.names

/-- **The types of inline tokens** are those that the conversion knows, with their forms, and the
formula on display. -/
theorem form_inline {type : Option InlineType}
    (h : InlineType.ofValue? (.str (typeName fields)) = .ok type) : Role.inline.form? fields =
      type.elim (if typeName fields = "block_math" then some .display else none)
        (some ·.form) := by
  obtain rfl := Except.ok.inj h
  have happend : Role.inline.forms =
      InlineType.table.map (fun p => (p.1, p.2.form)) ++ [("block_math", .display)] := rfl
  rw [Role.form?, happend, List.lookup_append, lookup_map]
  cases List.lookup (typeName fields) InlineType.table with
  | some type => rfl
  | none =>
    rw [Option.map_none, Option.none_or, List.lookup_cons]
    split_ifs with hname
    · rw [hname]
      rfl
    · rw [beq_eq_false_iff_ne.2 hname]
      rfl

theorem form_of_partType {name : String} (h : (textField fields "type").text? = some name) :
    Role.part.form? fields = List.lookup name Role.part.forms := by
  rw [Role.form?, typeName, h]
  rfl

section Known
variable {role inner : Role} {form : Form} {l : Leaf} {b : Branch}
  (hf : isFielded fields = true) (hform : role.form? fields = some form)
include hf

theorem form_of_blockType {type : BlockType}
    (h : BlockType.ofValue? (textField fields "type") = some type) :
    Role.block.form? fields = some type.form := by
  rw [form_block, ← eq_str_typeName hf, h]
  rfl

theorem form_of_inlineType {type : InlineType}
    (h : InlineType.ofValue? (textField fields "type") = .ok (some type)) :
    Role.inline.form? fields = some type.form := by
  rw [eq_str_typeName hf] at h
  rw [form_inline h]
  rfl

include hform

/-- **Of the tokens of known types** only blank lines and formulas on display vanish. -/
theorem form_of_vanishes (h : Vanishes role (.dict fields)) : form = .nothing ∨ form = .display := by
  have htext : (textField fields "type").text? = some (typeName fields) := by
    rw [eq_str_typeName hf]
    rfl
  have hmem := mem_of_lookup hform
  cases h with
  | block hblank =>
    rw [form_block] at hform
    obtain ⟨type, htype, rfl⟩ := Option.map_eq_some_iff.1 hform
    rw [← eq_str_typeName hf] at htype
    obtain rfl := hblank type htype
    exact .inl rfl
  | item hdict => exact absurd rfl (hdict fields)
  | note hname =>
    rw [Ne, type_eq_iff (by decide)] at hname
    simp [Role.forms, hname] at hmem
  | part hhead hbody =>
    simp only [htext, ne_eq, Option.some.injEq] at hhead hbody
    simp [Role.forms, hhead, hbody] at hmem
  | cell hname =>
    rw [Ne, type_eq_iff (by decide)] at hname
    simp [Role.forms, hname] at hmem
  | inline htype =>
    rw [eq_str_typeName hf] at htype
    rw [form_inline htype] at hform
    dsimp only [Option.elim] at hform
    split_ifs at hform
    exact .inr (Option.some.inj hform).symm

theorem step_of_becomes (hshaped : ∀ t ∈ tokensIn fields, Shaped t)
    (h : Becomes role fields l) :
    (∀ parts, sketchStep false form fields parts = [leafOutline l]) ∧
      ∀ ts, (textStep false form fields ts).map .str = (literal? (.leaf l none)).toList := by
  have hraw := eq_str_rawText hf
  have halt := plainChildren_flatText hf fun t ht => plainText_flatText (hshaped t ht)
  cases h with
  | code htype hcode _ =>
    cases hform.symm.trans (form_of_blockType hf htype)
    cases hraw.symm.trans hcode
    exact ⟨fun _ => rfl, fun _ => rfl⟩
  | thematicBreak htype =>
    cases hform.symm.trans (form_of_blockType hf htype)
    exact ⟨fun _ => rfl, fun _ => rfl⟩
  | html htype =>
    cases hform.symm.trans (form_of_blockType hf htype)
    rw [hraw]
    exact ⟨fun _ => rfl, fun _ => rfl⟩
  | math htype hmath =>
    cases hform.symm.trans (form_of_blockType hf htype)
    cases hraw.symm.trans hmath
    exact ⟨fun _ => rfl, fun _ => rfl⟩
  | literal htype =>
    cases hform.symm.trans (form_of_inlineType hf htype)
    rw [hraw]
    exact ⟨fun _ => rfl, fun _ => rfl⟩
  | softBreak htype =>
    cases hform.symm.trans (form_of_inlineType hf htype)
    exact ⟨fun _ => rfl, fun _ => rfl⟩
  | lineBreak htype =>
    cases hform.symm.trans (form_of_inlineType hf htype)
    exact ⟨fun _ => rfl, fun _ => rfl⟩
  | noteReference htype _ =>
    cases hform.symm.trans (form_of_inlineType hf htype)
    exact ⟨fun _ => rfl, fun _ => rfl⟩
  | imageReference htype hplain href _ =>
    cases hform.symm.trans (form_of_inlineType hf htype)
    cases halt.symm.trans hplain
    refine ⟨fun _ => ?_, fun _ => rfl⟩
    simp only [sketchStep, InlineType.form, kindOf, href]
    rfl
  | image htype hplain href =>
    cases hform.symm.trans (form_of_inlineType hf htype)
    cases halt.symm.trans hplain
    refine ⟨fun _ => ?_, fun _ => rfl⟩
    simp only [sketchStep, InlineType.form, kindOf, href]
    rfl

/-- A token that opens a branch has the outline of this branch, around what it holds. -/
theorem step_of_opens (h : Opens role fields inner b) : form.inner = inner ∧
    (∀ parts, sketchStep false form fields parts = [.branch (Mdast.Piece.branchName b) parts]) ∧
      ∀ ts, textStep false form fields ts = ts := by
  have hmem := mem_of_lookup hform
  cases h with
  | heading htype | paragraph htype | container htype | list htype | table htype =>
    cases hform.symm.trans (form_of_blockType hf htype)
    exact ⟨rfl, fun _ => rfl, fun _ => rfl⟩
  | item =>
    simp only [Role.forms, List.mem_cons, Prod.mk.injEq, List.not_mem_nil, or_false] at hmem
    obtain ⟨-, rfl⟩ | ⟨-, rfl⟩ := hmem <;> exact ⟨rfl, fun _ => rfl, fun _ => rfl⟩
  | note | row | cell =>
    simp only [Role.forms, List.mem_cons, Prod.mk.injEq, List.not_mem_nil, or_false] at hmem
    obtain ⟨-, rfl⟩ := hmem
    exact ⟨rfl, fun _ => rfl, fun _ => rfl⟩
  | head hhead =>
    cases hform.symm.trans (form_of_partType hhead)
    exact ⟨rfl, fun _ => rfl, fun _ => rfl⟩
  | span htype =>
    cases hform.symm.trans (form_of_inlineType hf htype)
    exact ⟨rfl, fun _ => rfl, fun _ => rfl⟩
  | linkReference htype href _ | link htype href =>
    cases hform.symm.trans (form_of_inlineType hf htype)
    exact ⟨rfl, fun _ => by simp [sketchStep, InlineType.form, kindOf, href]; rfl, fun _ => rfl⟩

theorem form_of_splices (h : Splices role fields inner) : form = .splice inner := by
  have hmem := mem_of_lookup hform
  cases h with
  | notes htype =>
    cases hform.symm.trans (form_of_blockType hf htype)
    rfl
  | body hbody =>
    cases hform.symm.trans (form_of_partType hbody)
    rfl

end Known

end Forms

/-! ### The conversion keeps the outline -/

section Kept
variable {role : Role} {vs : List Value} {ns : List Node}

theorem Arranged.shaped {v : Value} (h : Arranged role v) : Shaped v := by
  induction h with
  | @mk role fields form hf _ _ ih =>
    refine .mk fields hf fun items hitems t ht => ih t ?_
    rwa [tokensIn_of_list hitems]

/-- **Each rule keeps the outline and the texts**, but for formulas on display in running text. -/
theorem kept_of_converted (h : Converted role vs ns) (hall : ∀ v ∈ vs, Arranged role v) :
    outlines ns = sketch false role vs ∧ literals ns = (texts false role vs).map .str := by
  induction h with
  | nil => exact ⟨sketch_nil.symm, by rw [texts_nil]; rfl⟩
  | @cons role v vs ms ns _ _ ihfirst ihrest =>
    obtain ⟨hv, hvs⟩ := List.forall_mem_cons.1 hall
    obtain ⟨hms, hmtexts⟩ := ihfirst (by simpa using hv)
    obtain ⟨hns, hntexts⟩ := ihrest hvs
    constructor
    · rw [outlines_append, hms, hns, ← sketch_cons]
    · rw [literals_append, hmtexts, hntexts, ← List.map_append, ← texts_cons]
  | @vanish role v hvanish =>
    obtain ⟨hf, hform, -⟩ := hall v List.mem_cons_self
    rw [sketch_dict hform, texts_dict hform]
    obtain rfl | rfl := form_of_vanishes hf hform hvanish <;> exact ⟨rfl, rfl⟩
  | @leaf role fields l hl =>
    obtain ⟨hf, hform, hinner⟩ := hall _ List.mem_cons_self
    obtain ⟨hsketch, htexts⟩ := step_of_becomes hf hform (fun t ht => (hinner t ht).shaped) hl
    rw [sketch_dict hform, texts_dict hform, literals_leaf]
    exact ⟨(hsketch _).symm, (htexts _).symm⟩
  | @branch role inner fields b ns hb _ ih =>
    obtain ⟨hf, hform, hinner⟩ := hall _ List.mem_cons_self
    obtain ⟨rfl, hsketch, htexts⟩ := step_of_opens hf hform hb
    obtain ⟨hns, hntexts⟩ := ih hinner
    rw [sketch_dict hform, texts_dict hform, hsketch, htexts, literals_branch, ← hns]
    exact ⟨rfl, hntexts⟩
  | @splice role inner fields ns hsplices _ ih =>
    obtain ⟨hf, hform, hinner⟩ := hall _ List.mem_cons_self
    obtain rfl := form_of_splices hf hform hsplices
    rw [sketch_dict hform, texts_dict hform]
    exact ih hinner

/-- **What formulas on display in running text make out** in a row of tokens: a text each, and nothing
else. -/
structure Missing (role : Role) (vs : List Value) : Prop where
  length : (texts true role vs).length = (texts false role vs).length + (displays role vs).length
  sketch : displays role vs = [] → sketch true role vs = sketch false role vs
  texts : displays role vs = [] → texts true role vs = texts false role vs

theorem missing_of_each (h : ∀ v ∈ vs, Missing role [v]) : Missing role vs := by
  induction vs with
  | nil => exact ⟨by simp, by simp, by simp⟩
  | cons v vs ih =>
    obtain ⟨hv, hvs⟩ := List.forall_mem_cons.1 h
    have hrest := ih hvs
    refine ⟨?_, fun hnone => ?_, fun hnone => ?_⟩
    · rw [texts_cons true, texts_cons false, displays_cons, List.length_append, List.length_append,
        List.length_append, hv.length, hrest.length]
      omega
    all_goals
      rw [displays_cons] at hnone
      obtain ⟨hfirst, hnone⟩ := List.append_eq_nil_iff.1 hnone
    · rw [sketch_cons true, sketch_cons false, hv.sketch hfirst, hrest.sketch hnone]
    · rw [texts_cons true, texts_cons false, hv.texts hfirst, hrest.texts hnone]

theorem missing_of_arranged {v : Value} (h : Arranged role v) : Missing role [v] := by
  induction h with
  | @mk role fields form _ hform _ ih =>
    obtain ⟨hlength, hsketch, htexts⟩ := missing_of_each ih
    refine ⟨?_, fun hnone => ?_, fun hnone => ?_⟩
    · rw [texts_dict hform, texts_dict hform, displays_dict hform]
      cases form <;> first | exact hlength | rfl
    all_goals rw [displays_dict hform] at hnone
    · rw [sketch_dict hform, sketch_dict hform]
      cases form <;> first | rfl | cases hnone | simp only [sketchStep, hsketch hnone]
    · rw [texts_dict hform, texts_dict hform]
      cases form <;> first | rfl | cases hnone | simp only [textStep, htexts hnone]

end Kept

/-- The blocks of a text are converted, and keep their outline and texts but for formulas on display in
running text. -/
theorem exists_kept {items : List Value} (hall : ∀ v ∈ items, Arranged .block v)
    (log : List Record) : ∃ ns log', blockNodesEach items log = (.ok ns, log') ∧
      outlines ns = sketch false .block items ∧
      literals ns = (texts false .block items).map .str := by
  obtain ⟨ns, log', hns, -⟩ :=
    succeeds_blockNodesEach_of_each (fun v hv => succeeds_blockNodes (hall v hv).shaped) log
  exact ⟨ns, log', hns, kept_of_converted (converted_blockNodesEach hns) hall⟩

/-- **The blocks of a text are converted**, and their outline and texts are kept but for the formulas on
display that stand in running text. So all is kept exactly if there are none. -/
theorem blocks_kept {items : List Value} (hall : ∀ v ∈ items, Arranged .block v)
    (log : List Record) :
    ∃ ns log', blockNodesEach items log = (.ok ns, log') ∧
      outlines ns = sketch false .block items ∧
      literals ns = (texts false .block items).map .str ∧
      (outlines ns = sketch true .block items ∧ literals ns = (texts true .block items).map .str ↔
        displays .block items = []) := by
  obtain ⟨ns, log', hns, houtlines, hliterals⟩ := exists_kept hall log
  have hmissing := missing_of_each fun v hv => missing_of_arranged (hall v hv)
  refine ⟨ns, log', hns, houtlines, hliterals, fun ⟨_, h⟩ => ?_, fun h => ?_⟩
  · -- Each formula that is left out has a text, so none is missing where the texts are the same.
    have heq := congrArg List.length (hliterals.symm.trans h)
    rw [List.length_map, List.length_map] at heq
    have hlength := hmissing.length
    exact List.length_eq_zero_iff.1 (by omega)
  · exact ⟨houtlines.trans (hmissing.sketch h).symm, by rw [hliterals, hmissing.texts h]⟩

/-- A list with a picture in it, a table, and a footnote. -/
def collection : List Value := [
  token "list" [("children", .list [token "list_item" [("children", .list [
    token "block_text" [("children", .list [token "codespan" [("raw", .str "x")],
      token "image" [("attrs", .dict [("url", .str "logo.png")]), ("children", .list [
        token "emphasis" [("children", .list [token "text" [("raw", .str "logo")]])]])]])]])]])],
  token "blank_line" [],
  token "table" [("children", .list [
    token "table_head" [("children", .list [token "table_cell" [("children", .list [])]])],
    token "table_body" [("children", .list [token "table_row" [("children", .list [])]])]])],
  token "footnotes" [("children", .list [
    token "footnote_item" [("attrs", .dict [("key", .str "a")]), ("children", .list [
      token "block_code" [("raw", .str "y\n")]])]])]]

theorem blocks_kept_collection : (∀ v ∈ collection, Arranged .block v) ∧
    ∃ ns log', blockNodesEach collection [] = (.ok ns, log') ∧
      outlines ns = sketch false .block collection ∧
      literals ns = (texts false .block collection).map .str ∧
      (outlines ns = sketch true .block collection ∧
        literals ns = (texts true .block collection).map .str ↔ displays .block collection = []) := by
  have hone : ∀ {role : Role} {v : Value}, Arranged role v → ∀ t ∈ [v], Arranged role t :=
    List.forall_mem_singleton.2
  have hall : ∀ v ∈ collection, Arranged .block v := by
    refine List.forall_mem_cons.2 ⟨.mk rfl rfl ?_, List.forall_mem_cons.2 ⟨.mk rfl rfl nofun,
      forall_mem_pair (.mk rfl rfl ?_) (.mk rfl rfl ?_)⟩⟩
    · refine hone (.mk rfl rfl (hone (.mk rfl rfl (forall_mem_pair (.mk rfl rfl nofun) ?_))))
      exact .mk rfl rfl (hone (.mk rfl rfl (hone (.mk rfl rfl nofun))))
    · exact forall_mem_pair (.mk rfl rfl (hone (.mk rfl rfl nofun)))
        (.mk rfl rfl (hone (.mk rfl rfl nofun)))
    · exact hone (.mk rfl rfl (hone (.mk rfl rfl nofun)))
  exact ⟨hall, blocks_kept hall []⟩

/-- A paragraph with a formula on display between its texts. -/
def formula : List Value := [
  token "paragraph" [("children", .list [token "text" [("raw", .str "text ")],
    token "block_math" [("raw", .str "inline display")], token "text" [("raw", .str " text")]])]]

/-- **A formula on display in running text is left out.** -/
theorem formula_left_out : (∀ v ∈ formula, Arranged .block v) ∧
    ∃ ns log', blockNodesEach formula [] = (.ok ns, log') ∧
      literals ns = [.str "text ", .str " text"] ∧
      texts true .block formula = ["text ", "inline display", " text"] ∧
      literals ns ≠ (texts true .block formula).map .str := by
  have hall : ∀ v ∈ formula, Arranged .block v := by
    refine List.forall_mem_singleton.2 (.mk rfl rfl (List.forall_mem_cons.2 ⟨.mk rfl rfl nofun, ?_⟩))
    exact forall_mem_pair (.mk rfl rfl nofun) (.mk rfl rfl nofun)
  obtain ⟨ns, log', hns, -, hliterals⟩ := exists_kept hall []
  have htokens : ∀ kept, texts kept .block formula =
      ["text "] ++ ((if kept then ["inline display"] else []) ++ [" text"]) := fun kept => by
    have htext : ∀ s, texts kept .inline [token "text" [("raw", .str s)]] = [s] := fun s =>
      texts_dict (show Role.inline.form? _ = some (.text "Text" id) from rfl)
    have hdisplay : texts kept .inline [token "block_math" [("raw", .str "inline display")]] =
        if kept then ["inline display"] else [] :=
      texts_dict (show Role.inline.form? _ = some .display from rfl)
    refine (texts_dict
      (show Role.block.form? _ = some (.branch "Paragraph" .inline) from rfl)).trans ?_
    show texts kept .inline [_, _, _] = _
    rw [texts_cons kept, htext, texts_cons kept, hdisplay, htext]
  rw [htokens] at hliterals
  refine ⟨hall, ns, log', hns, hliterals, htokens true, ?_⟩
  rw [hliterals, htokens]
  simp

end Bulletin.Markdown.Handed
