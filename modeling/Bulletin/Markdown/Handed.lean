import Bulletin.Convert

/-! # Documents of tokens that are handed over

The tokens of a text may come from a tokenizer outside: objects with a `type`, a text `raw`, further
fields `attrs` and the tokens `children`, and an environment with the link definitions of the text.
Nothing is known of what their fields hold. So a step asks a value for what it needs, and fails where
the value has it not: for the fields of an object, for the items of a row, for what can be done with a
text only. A field that is missing has a default, and a token of a type that is not known becomes
nothing and is reported. -/

namespace Bulletin.Markdown.Handed

open Mdast (Node Branch)

/-! ### What a step asks of a value -/

/-- The failure of a value that is asked for what values of its type do not have. -/
def lacks (v : Value) (name : String) : Failure :=
  .stated .noAttribute s!"'{v.typeName}' object has no attribute '{name}'" []

/-- The fields of a value that is asked for one. -/
def fieldsOf : Value → Except Failure Fields
  | .dict fields => .ok fields
  | v => .error (.noLookup v.typeName)

/-- The text of a value that is asked for what can be done with a text. -/
def textFor (method : String) : Value → Except Failure String
  | .str s => .ok s
  | v => .error (lacks v method)

/-- A field that is an empty text if it is missing. -/
def textField (fields : Fields) (key : String) : Value := (fields.get? key).getD (.str "")

/-- The field `attrs` of a token, empty if it is no object. -/
def attributes (fields : Fields) : Fields := ((fields.getD "attrs").fields?).getD []

/-- The field `attrs` of a token that must be an object. -/
def attributesOf (fields : Fields) : Except Failure Fields :=
  fieldsOf ((fields.get? "attrs").getD (.dict []))

/-- The items of the field `children`, each smaller than the token. The characters of a text and the
keys of an object are no tokens, so the first of them is a failure. -/
def childTokens (fields : Fields) :
    Except Failure { items : List Value // sizeOf items < sizeOf (Value.dict fields) } :=
  match h : fields.get? "children" with
  | none => .ok ⟨[], Fields.sizeOf_nil_lt fields⟩
  | some (.list items) => .ok ⟨items, Fields.sizeOf_items_lt h⟩
  | some (.str s) =>
    if s.isEmpty then .ok ⟨[], Fields.sizeOf_nil_lt fields⟩
    else .error (.noLookup (Value.str s).typeName)
  | some (.dict inner) =>
    if inner.isEmpty then .ok ⟨[], Fields.sizeOf_nil_lt fields⟩
    else .error (.noLookup (Value.str "").typeName)
  | some v => .error (.tree (.notIterable v.typeName))

/-- A computation that reports that a token becomes nothing. -/
def skip (kind : String) (type : Value) : Logged Failure Unit :=
  Logged.report .debug .markdown (skipMessage kind type)

/-! ### Plain text -/

/-- The items of the field `children` of which a plain text is asked, each smaller than the token. The
characters of a text and the keys of an object are no tokens, so they have none. -/
def plainItems (fields : Fields) :
    Except Failure { items : List Value // sizeOf items < sizeOf (Value.dict fields) } :=
  match h : fields.get? "children" with
  | some (.list items) => .ok ⟨items, Fields.sizeOf_items_lt h⟩
  | none => .ok ⟨[], Fields.sizeOf_nil_lt fields⟩
  | some (.str _) => .ok ⟨[], Fields.sizeOf_nil_lt fields⟩
  | some (.dict _) => .ok ⟨[], Fields.sizeOf_nil_lt fields⟩
  | some v => .error (.tree (.notIterable v.typeName))

mutual

/-- The plain text of an inline token, for the place of an image: that of its children, if it has
some. What is no object has none, and a soft line break is a space. -/
def plainText (v : Value) : Except Failure Value :=
  match v with
  | .dict fields =>
    if Fields.has fields "children" then (plainChildren fields).map .str
    else if (Fields.getD fields "type").text? = some "softbreak" then .ok (.str " ")
    else .ok (textField fields "raw")
  | _ => .ok (.str "")
termination_by (sizeOf v, 1)

/-- The plain text of the children of a token. -/
def plainChildren (fields : Fields) : Except Failure String := do
  let items ← plainItems fields
  let texts ← plainTexts items.1
  (Page.joinTexts 0 texts).mapError .page
termination_by (sizeOf (Value.dict fields), 0)
decreasing_by exact Prod.Lex.left _ _ items.2

/-- The plain texts of the items of a row. -/
def plainTexts (vs : List Value) : Except Failure (List Value) :=
  match vs with
  | [] => .ok []
  | v :: r => do
    let text ← plainText v
    let texts ← plainTexts r
    return text :: texts
termination_by (sizeOf vs, 0)
decreasing_by all_goals exact Prod.Lex.left _ _ (by simp +arith)

end

/-! ### Inline tokens -/

/-- The types of inline tokens. -/
inductive InlineType where
  | literal (kind : Mdast.Literal)
  | container (kind : Mdast.Container)
  | softBreak
  | lineBreak
  | noteReference
  | link
  | image

/-- The types of inline tokens under their names. -/
def InlineType.table : List (String × InlineType) :=
  [("text", .literal .text), ("softbreak", .softBreak), ("linebreak", .lineBreak),
    ("strong", .container .strong), ("emphasis", .container .emphasis),
    ("strikethrough", .container .delete), ("codespan", .literal .inlineCode),
    ("inline_math", .literal .inlineMath), ("inline_html", .literal .html),
    ("footnote_ref", .noteReference), ("link", .link), ("image", .image)]

/-- The type of an inline token, none if it is not known; a row or an object can be no name. -/
def InlineType.ofValue? : Value → Except Failure (Option InlineType)
  | .str name => .ok (List.lookup name table)
  | .list items => .error (.tree (.compoundType (Value.list items).typeName))
  | .dict fields => .error (.tree (.compoundType (Value.dict fields).typeName))
  | _ => .ok none

/-- The node of a footnote reference: it names its text, or else the label among its attributes. -/
def noteReferenceNode (fields : Fields) : Except Failure Node := do
  let raw := fields.getD "raw"
  let key := if raw.truthy then raw else textField (attributes fields) "label"
  return .leaf (.footnoteReference (.str (Text.lower (← textFor "lower" key))) .null) none

/-- The node of a link: one with a `ref` has been found among the link definitions. -/
def linkNode (fields : Fields) (children : List Node) : Except Failure Node := do
  let ref := fields.getD "ref"
  if ref.truthy then
    let key ← textFor "lower" ref
    return .of (.linkReference (.str (Text.lower key)) (fields.getD "label")) children
  else
    let attrs := attributes fields
    return .of (.link (textField attrs "url") (attrs.getD "title")) children

/-- The node of an image, which keeps of its children only their plain text. -/
def imageNode (fields : Fields) : Except Failure Node := do
  let alt ← plainChildren fields
  let ref := fields.getD "ref"
  if ref.truthy then
    let key ← textFor "lower" ref
    return .leaf (.imageReference (.str (Text.lower key)) (.str alt) (fields.getD "label")) none
  else
    let attrs := attributes fields
    return .leaf (.image (textField attrs "url") (.str alt) (attrs.getD "title")) none

mutual

/-- The node of an inline token, none for one of no known type. -/
def inlineNode (v : Value) : Logged Failure (Option Node) :=
  match v with
  | .dict fields => do
    match ← Logged.lift (InlineType.ofValue? (textField fields "type")) with
    | none =>
      skip "inline" (textField fields "type")
      return none
    | some (.literal k) => return some (.literal k (textField fields "raw"))
    | some .softBreak => return some (.text "\n")
    | some .lineBreak => return some (.leaf .lineBreak none)
    | some (.container k) =>
      let items ← Logged.lift (childTokens fields)
      return some (.container k (← inlineNodes items.1))
    | some .noteReference => return some (← Logged.lift (noteReferenceNode fields))
    | some .link =>
      let items ← Logged.lift (childTokens fields)
      let children ← inlineNodes items.1
      return some (← Logged.lift (linkNode fields children))
    | some .image => return some (← Logged.lift (imageNode fields))
  | v => throw (.noLookup v.typeName)
termination_by sizeOf v
decreasing_by all_goals exact items.2

/-- The nodes of a row of inline tokens. -/
def inlineNodes (vs : List Value) : Logged Failure (List Node) :=
  match vs with
  | [] => return []
  | v :: r => do
    let node ← inlineNode v
    let nodes ← inlineNodes r
    return node.toList ++ nodes
termination_by sizeOf vs

end

/-- The nodes of the children of a token that holds inline tokens. -/
def inlineChildren (fields : Fields) : Logged Failure (List Node) := do
  let items ← Logged.lift (childTokens fields)
  inlineNodes items.1

/-! ### Tables -/

/-- The alignments that cells state. -/
def cellAligns : List Value → Except Failure (List Value)
  | [] => .ok []
  | v :: r => do
    let fields ← fieldsOf v
    let attrs ← attributesOf fields
    let aligns ← cellAligns r
    return attrs.getD "align" :: aligns

/-- The nodes of the cells of a row; what is no cell is left out. -/
def cellNodes : List Value → Logged Failure (List Node)
  | [] => return []
  | v :: r => do
    let fields ← Logged.lift (fieldsOf v)
    if (fields.getD "type").text? = some "table_cell" then
      let children ← inlineChildren fields
      let nodes ← cellNodes r
      return .container .tableCell children :: nodes
    else cellNodes r

/-- The nodes of the rows of the body of a table. -/
def bodyRows : List Value → Logged Failure (List Node)
  | [] => return []
  | v :: r => do
    let fields ← Logged.lift (fieldsOf v)
    let items ← Logged.lift (childTokens fields)
    let cells ← cellNodes items.1
    let rows ← bodyRows r
    return .container .tableRow cells :: rows

/-- The alignments and the rows of a table from its parts: a head is a row of its own and states the
alignments, which are given as they are so far. -/
def tableRows (align : List Value) : List Value → Logged Failure (List Value × List Node)
  | [] => return (align, [])
  | v :: r => do
    let fields ← Logged.lift (fieldsOf v)
    if (textField fields "type").text? = some "table_head" then
      let items ← Logged.lift (childTokens fields)
      let own ← Logged.lift (cellAligns items.1)
      let cells ← cellNodes items.1
      let (align, rows) ← tableRows own r
      return (align, .container .tableRow cells :: rows)
    else if (textField fields "type").text? = some "table_body" then
      let items ← Logged.lift (childTokens fields)
      let body ← bodyRows items.1
      let (align, rows) ← tableRows align r
      return (align, body ++ rows)
    else tableRows align r

/-- The node of a table. -/
def tableNode (fields : Fields) : Logged Failure Node := do
  let parts ← Logged.lift (childTokens fields)
  let (align, rows) ← tableRows [] parts.1
  return .of (.table (.list align)) rows

/-! ### Blocks -/

/-- The types of blocks. -/
inductive BlockType where
  | heading
  | paragraph
  | code
  | container (kind : Mdast.Container)
  | list
  | table
  | thematicBreak
  | html
  | math
  | notes
  | blankLine

/-- The types of blocks under their names; the text in an item of a list without blank lines is a
paragraph. -/
def BlockType.names : List (String × BlockType) :=
  [("heading", .heading), ("paragraph", .paragraph), ("block_text", .paragraph),
    ("block_code", .code), ("block_quote", .container .blockquote), ("list", .list),
    ("list_item", .container .listItem), ("task_list_item", .container .listItem),
    ("table", .table), ("thematic_break", .thematicBreak), ("block_html", .html),
    ("block_math", .math), ("footnotes", .notes), ("blank_line", .blankLine)]

/-- The type of a block, none if it is not known. -/
def BlockType.ofValue? (type : Value) : Option BlockType :=
  type.text?.bind fun name => List.lookup name names

/-- The first word of a text that has one. -/
def firstWord (s : String) : Except Failure String :=
  match Text.words s with
  | w :: _ => .ok w
  | [] => .error (.stated .index "list index out of range" [])

/-- The language of a code block: the first word of its information, null if there is none. -/
def languageOf (info : Value) : Except Failure Value := do
  if !info.truthy then return .null
  let stripped := Text.strip (← textFor "strip" info)
  if stripped.isEmpty then return .null
  return .str (← firstWord stripped)

/-- The node of a code block. -/
def codeNode (fields : Fields) : Except Failure Node := do
  let raw ← textFor "endswith" (textField fields "raw")
  let lang ← languageOf ((attributes fields).getD "info")
  return .leaf (.code (.str (dropLastBreak raw)) lang) none

/-- The node of a heading, which is checked when it is made. -/
def headingNode (fields : Fields) : Logged Failure Node := do
  let level := headingLevel (((attributes fields).get? "level").getD (.int 1))
  let children ← inlineChildren fields
  Logged.lift ((Branch.heading level).check.mapError .tree)
  return .of (.heading level) children

/-- The number at which a list starts: none if it is not ordered, and the first if it states none. -/
def startOf (ordered : Bool) (attrs : Fields) : Value :=
  if ordered then (attrs.get? "start").getD (.int 1) else .null

/-- The items of a list, each smaller than the token; what is no row has none. -/
def listItems (fields : Fields) :
    { items : List Value // sizeOf items < sizeOf (Value.dict fields) } :=
  match h : fields.get? "children" with
  | some (.list items) => ⟨items, Fields.sizeOf_items_lt h⟩
  | _ => ⟨[], Fields.sizeOf_nil_lt fields⟩

mutual

/-- The nodes of a block: one for most, one each for the notes of a footnote block, none for a
blank line and for a block of no known type. -/
def blockNodes (v : Value) : Logged Failure (List Node) :=
  match v with
  | .dict fields => do
    match BlockType.ofValue? (textField fields "type") with
    | none =>
      skip "block" (textField fields "type")
      return []
    | some .heading => return [← headingNode fields]
    | some .paragraph => return [.container .paragraph (← inlineChildren fields)]
    | some .code => return [← Logged.lift (codeNode fields)]
    | some (.container k) =>
      let items ← Logged.lift (childTokens fields)
      return [.container k (← blockNodesEach items.1)]
    | some .list =>
      let attrs := attributes fields
      let ordered := (attrs.getD "ordered").truthy
      let items := listItems fields
      return [.of (.list (.bool ordered) (startOf ordered attrs)) (← itemNodes items.1)]
    | some .table => return [← tableNode fields]
    | some .thematicBreak => return [.leaf .thematicBreak none]
    | some .html => return [.literal .html (textField fields "raw")]
    | some .math =>
      let raw ← Logged.lift (textFor "strip" (textField fields "raw"))
      return [.literal .math (.str (trimBreaks raw))]
    | some .notes =>
      let items ← Logged.lift (childTokens fields)
      noteNodes items.1
    | some .blankLine => return []
  | v => throw (.noLookup v.typeName)
termination_by sizeOf v
decreasing_by all_goals exact items.2

/-- The nodes of a row of blocks. -/
def blockNodesEach (vs : List Value) : Logged Failure (List Node) :=
  match vs with
  | [] => return []
  | v :: r => do
    let nodes ← blockNodes v
    let rest ← blockNodesEach r
    return nodes ++ rest
termination_by sizeOf vs

/-- The nodes of the items of a list; what is no object is left out. -/
def itemNodes (vs : List Value) : Logged Failure (List Node) :=
  match vs with
  | [] => return []
  | .dict fields :: r => do
    let items ← Logged.lift (childTokens fields)
    let children ← blockNodesEach items.1
    let rest ← itemNodes r
    return .container .listItem children :: rest
  | _ :: r => itemNodes r
termination_by sizeOf vs
decreasing_by
  · have h := items.2
    simp at h ⊢
    omega
  all_goals simp only [List.cons.sizeOf_spec, Value.dict.sizeOf_spec]; omega

/-- The nodes of the notes of a footnote block. -/
def noteNodes (vs : List Value) : Logged Failure (List Node) :=
  match vs with
  | [] => return []
  | .dict fields :: r => do
    if (Fields.getD fields "type").text? = some "footnote_item" then
      let attrs ← Logged.lift (attributesOf fields)
      let key ← Logged.lift (textFor "lower" (textField attrs "key"))
      let items ← Logged.lift (childTokens fields)
      let children ← blockNodesEach items.1
      let rest ← noteNodes r
      return .of (.footnoteDefinition (.str (Text.lower key)) .null) children :: rest
    else noteNodes r
  | v :: _ => throw (.noLookup v.typeName)
termination_by sizeOf vs
decreasing_by
  · have h := items.2
    simp at h ⊢
    omega
  all_goals simp only [List.cons.sizeOf_spec, Value.dict.sizeOf_spec]; omega

end

/-! ### The document -/

/-- The fields with the link definitions of an environment, none if it has none. -/
def linkFields (env : Value) : Except Failure Fields := do
  let fields ← fieldsOf (env.orElse (.dict []))
  match (fields.getD "ref_links").orElse (.dict []) with
  | .dict links => return links
  | v => throw (lacks v "items")

/-- The link definition in a field, under its key; what is no object is none. -/
def linkDefinition? (link : String × Value) : Option LinkDefinition :=
  link.2.fields?.map fun attrs =>
    ⟨link.1, textField attrs "url", Fields.getD attrs "title", Fields.getD attrs "label"⟩

/-- The link definitions in an environment. -/
def linkDefinitions (env : Value) : Except Failure (List LinkDefinition) := do
  return (← linkFields env).filterMap linkDefinition?

/-- The tokens of a text with its environment, as they are handed over. -/
structure Tokens where
  tokens : Value
  env : Value := .null

/-- The nodes of the tokens; those that are no row have none. -/
def Tokens.blocks (given : Tokens) : Logged Failure (List Node) :=
  match given.tokens with
  | .list items => blockNodesEach items
  | _ => return []

/-- The document of tokens, with the front matter of its text before them. -/
def Tokens.document (front : Option Node) (given : Tokens) : Logged Failure Node := do
  let blocks ← given.blocks
  let definitions ← Logged.lift (linkDefinitions given.env)
  let nodes := front.toList ++ (blocks ++ definitions.map LinkDefinition.node)
  Logged.report .debug .markdown s!"Parsed Markdown into {nodes.length} top-level nodes"
  return .container .root nodes

/-- The document of a Markdown text whose text is cut into tokens elsewhere. -/
def read (tokenizer : Extensions → String → Except String Tokens) (o : MarkdownOptions)
    (text : String) : Logged Failure Node := do
  let (front, rest) := o.splitFront text
  match tokenizer o.extensions rest with
  | .error why => throw (.tokens why)
  | .ok given => given.document front

end Bulletin.Markdown.Handed
