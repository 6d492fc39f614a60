import Bulletin.Proofs.Markdown.Handed
import Bulletin.Proofs.Markdown.Tokenize

/-! # Tokens of the own tokenizer, handed over

The tokens of the own tokenizer are data of types of their own, and to make a document of them takes
no checks. Written as the objects that would be handed over, they become the same document with the
same reports, provided that they are known in their objects. The tokens of a text are. So to read a
text is to convert the objects of its tokens with all checks.

* `says_inlineNode`, `says_blockNodes`: a token and its object become the same nodes.
* `document_handed`: tokens and their objects become the same document.
* `readMarkdown_eq_read`: so a text is read alike. -/

namespace Bulletin.Markdown.Handed

open Mdast (Node Leaf Branch)
open Bulletin.Proofs

variable {fields : Fields}

/-! ### Tokens as objects -/

mutual

/-- The object of an inline token. -/
def inlineValue : Inline → Value
  | .text raw => token "text" [("raw", raw)]
  | .softBreak => token "softbreak" []
  | .lineBreak => token "linebreak" []
  | .code raw => token "codespan" [("raw", raw)]
  | .math raw => token "inline_math" [("raw", raw)]
  | .html raw => token "inline_html" [("raw", raw)]
  | .noteReference key label =>
    token "footnote_ref" [("raw", .str key), ("attrs", .dict [("label", .str label)])]
  | .emphasis children => token "emphasis" [("children", .list (inlineValues children))]
  | .strong children => token "strong" [("children", .list (inlineValues children))]
  | .delete children => token "strikethrough" [("children", .list (inlineValues children))]
  | .link url title children =>
    token "link" [("attrs", .dict [("url", url), ("title", title)]),
      ("children", .list (inlineValues children))]
  | .linkReference key label children =>
    token "link" [("ref", .str key), ("label", label), ("children", .list (inlineValues children))]
  | .image url title children =>
    token "image" [("attrs", .dict [("url", url), ("title", title)]),
      ("children", .list (inlineValues children))]
  | .imageReference key label children =>
    token "image" [("ref", .str key), ("label", label), ("children", .list (inlineValues children))]
  | .unknown type raw [] => .dict [("type", type), ("raw", raw)]
  | .unknown type raw (child :: children) =>
    .dict [("type", type), ("raw", raw),
      ("children", .list (inlineValue child :: inlineValues children))]

/-- The objects of a row of inline tokens. -/
def inlineValues : List Inline → List Value
  | [] => []
  | t :: ts => inlineValue t :: inlineValues ts

end

/-- The object of a cell of a table. -/
def cellValue (c : Cell) : Value :=
  match c.content with
  | some ts => token "table_cell" [("attrs", .dict [("align", c.align)]),
      ("children", .list (inlineValues ts))]
  | none => .dict [("attrs", .dict [("align", c.align)])]

/-- The object of a row of a table. -/
def rowValue (type : String) (cells : List Cell) : Value :=
  token type [("children", .list (cells.map cellValue))]

/-- The object of a part of a table. -/
def partValue : TablePart → Value
  | .head cells => rowValue "table_head" cells
  | .body rows => token "table_body" [("children", .list (rows.map (rowValue "table_row")))]

/-- The attributes of a code block with its information. -/
def infoValue (info : Option String) : Value := .dict (info.toList.map fun s => ("info", .str s))

mutual

/-- The object of a block. -/
def blockValue : Block → Value
  | .heading level children => token "heading" [("attrs", .dict [("level", level)]),
      ("children", .list (inlineValues children))]
  | .paragraph children => token "paragraph" [("children", .list (inlineValues children))]
  | .code raw info => token "block_code" [("raw", .str raw), ("attrs", infoValue info)]
  | .quote children => token "block_quote" [("children", .list (blockValues children))]
  | .list ordered start items =>
    token "list" [("attrs", .dict [("ordered", .bool ordered), ("start", start)]),
      ("children", .list (itemValues items))]
  | .item children => token "list_item" [("children", .list (blockValues children))]
  | .table parts => token "table" [("children", .list (parts.map partValue))]
  | .thematicBreak => token "thematic_break" []
  | .html raw => token "block_html" [("raw", raw)]
  | .math raw => token "block_math" [("raw", .str raw)]
  | .notes items => token "footnotes" [("children", .list (noteValues items))]
  | .blankLine => token "blank_line" []
  | .unknown type => .dict [("type", type)]

/-- The objects of a row of blocks. -/
def blockValues : List Block → List Value
  | [] => []
  | b :: bs => blockValue b :: blockValues bs

/-- The objects of the items of a list. -/
def itemValues : List (List Block) → List Value
  | [] => []
  | bs :: r => token "list_item" [("children", .list (blockValues bs))] :: itemValues r

/-- The objects of footnotes. -/
def noteValues : List (String × List Block) → List Value
  | [] => []
  | (key, bs) :: r =>
    token "footnote_item" [("attrs", .dict [("key", .str key)]),
      ("children", .list (blockValues bs))] :: noteValues r

end

/-- The field of a link definition in an environment. -/
def linkField (d : LinkDefinition) : String × Value :=
  (d.key, .dict [("url", d.url), ("title", d.title), ("label", d.label)])

/-- **Tokens and link definitions as they would be handed over.** -/
def handed (tokens : Markdown.Tokens) : Tokens where
  tokens := .list (blockValues tokens.blocks)
  env := .dict [("ref_links", .dict (tokens.definitions.map linkField))]

/-! ### Conversions with their reports -/

section Says
variable {α β : Type} {x : Logged Failure α} {a : α} {b : β} {ms ms' : List String}

/-- A conversion with its result and the messages that it reports. -/
def Says (x : Logged Failure α) (a : α) (ms : List String) : Prop :=
  ∀ log, x log = (.ok a, log ++ ms.map (⟨.debug, .markdown, ·⟩))

theorem says_pure (a : α) : Says (pure a) a [] := fun log => by
  rw [List.map_nil, List.append_nil]
  rfl

theorem says_report (message : String) :
    Says (Logged.report .debug .markdown message) () [message] := fun _ => rfl

/-- **A sequence reports what its parts report.** -/
theorem Says.bind {k : α → Logged Failure β} (hx : Says x a ms) (hk : Says (k a) b ms') :
    Says (x >>= k) b (ms ++ ms') := fun log => by
  rw [Runs.bind_ok (hx log), hk, List.append_assoc, List.map_append]

theorem Says.bind_silent {k : α → Logged Failure β} (hx : Says x a ms) (hk : Says (k a) b []) :
    Says (x >>= k) b ms := by simpa using hx.bind hk

theorem Says.lift_bind {r : Except Failure α} {k : α → Logged Failure β} (hr : r = .ok a)
    (hk : Says (k a) b ms) : Says (Logged.lift r >>= k) b ms := by
  have hlift : Says (Logged.lift r) a [] := fun log => by
    rw [hr, List.map_nil, List.append_nil]
    rfl
  simpa using hlift.bind hk

theorem Says.pos {c : Prop} [Decidable c] {y : Logged Failure α} (hc : c) (h : Says x a ms) :
    Says (if c then x else y) a ms := by rwa [if_pos hc]

theorem Says.neg {c : Prop} [Decidable c] {y : Logged Failure α} (hc : ¬ c) (h : Says x a ms) :
    Says (if c then y else x) a ms := by rwa [if_neg hc]

theorem Says.children {items : List Value} {k : _ → Logged Failure β}
    (h : fields.get? "children" = some (.list items))
    (hk : ∀ hlt, Says (k ⟨items, hlt⟩) b ms) :
    Says (Logged.lift (childTokens fields) >>= k) b ms := by
  obtain ⟨r, hr, rfl⟩ : ∃ r, childTokens fields = .ok r ∧ r.1 = items := by
    unfold childTokens
    split <;> simp_all
  exact .lift_bind hr (hk r.2)

end Says

/-! ### Plain text -/

/-- The texts of a row of inline tokens, one for each. -/
def plainValues : List Inline → List Value
  | [] => []
  | t :: ts => .str (Inline.plain t) :: plainValues ts

theorem joinTexts_plainValues : ∀ (ts : List Inline) (i : ℕ),
    Page.joinTexts i (plainValues ts) = .ok (Inline.plains ts)
  | [], _ => rfl
  | t :: ts, i => by
    rw [plainValues, Page.joinTexts, joinTexts_plainValues ts (i + 1)]
    rfl

theorem plainChildren_eq {ts : List Inline}
    (h : fields.get? "children" = some (.list (inlineValues ts)))
    (hts : plainTexts (inlineValues ts) = .ok (plainValues ts)) :
    plainChildren fields = .ok (Inline.plains ts) := by
  obtain ⟨r, hr, hitems⟩ : ∃ r, plainItems fields = .ok r ∧ r.1 = inlineValues ts := by
    unfold plainItems
    split <;> simp_all
  rw [plainChildren, hr, Runs.except_ok_bind, hitems, hts, Runs.except_ok_bind,
    joinTexts_plainValues]
  rfl

theorem plainText_of_children {ts : List Inline}
    (h : fields.get? "children" = some (.list (inlineValues ts)))
    (hts : plainTexts (inlineValues ts) = .ok (plainValues ts)) :
    plainText (.dict fields) = .ok (.str (Inline.plains ts)) := by
  have hhas : Fields.has fields "children" = true := by simp [Fields.has, h]
  rw [plainText, if_pos hhas, plainChildren_eq h hts]
  rfl

/-- The plain text of a token without children is its raw text, unless it is a soft line break. -/
theorem plainText_of_raw {s type : String} (hne : type ≠ "softbreak")
    (htype : Fields.getD fields "type" = .str type) (h : Fields.has fields "children" = false)
    (hraw : textField fields "raw" = .str s) : plainText (.dict fields) = .ok (.str s) := by
  have hsoft : (Fields.getD fields "type").text? ≠ some "softbreak" := by
    rw [htype]
    exact fun hsome => hne (Option.some.inj hsome)
  rw [plainText, if_neg (by simp [h]), if_neg hsoft, hraw]

theorem eq_str_of_unknown {type : Value}
    (h : type.text?.any (fun name => (List.lookup name InlineType.table).isNone) = true) :
    ∃ name, type = .str name ∧ List.lookup name InlineType.table = none := by
  cases type with
  | str name => exact ⟨name, rfl, Option.isNone_iff_eq_none.1 h⟩
  | _ => cases h

mutual

/-- **The plain text of an inline token is that of its object.** -/
theorem plainText_inlineValue : ∀ t : Inline, Inline.isKnown t = true →
    plainText (inlineValue t) = .ok (.str (Inline.plain t))
  | .text raw, h => by
    obtain ⟨s, rfl⟩ := eq_str_of_isText h
    rw [inlineValue]
    exact plainText_of_raw (by decide : "text" ≠ _) rfl rfl rfl
  | .softBreak, _ => by
    rw [inlineValue, token, plainText]
    rfl
  | .lineBreak, _ => by
    rw [inlineValue]
    exact plainText_of_raw (by decide : "linebreak" ≠ _) rfl rfl rfl
  | .code raw, h => by
    obtain ⟨s, rfl⟩ := eq_str_of_isText h
    rw [inlineValue]
    exact plainText_of_raw (by decide : "codespan" ≠ _) rfl rfl rfl
  | .math raw, h => by
    obtain ⟨s, rfl⟩ := eq_str_of_isText h
    rw [inlineValue]
    exact plainText_of_raw (by decide : "inline_math" ≠ _) rfl rfl rfl
  | .html raw, h => by
    obtain ⟨s, rfl⟩ := eq_str_of_isText h
    rw [inlineValue]
    exact plainText_of_raw (by decide : "inline_html" ≠ _) rfl rfl rfl
  | .noteReference key label, _ => by
    rw [inlineValue]
    exact plainText_of_raw (by decide : "footnote_ref" ≠ _) rfl rfl rfl
  | .emphasis children, h => by
    rw [inlineValue]
    exact plainText_of_children rfl (plainTexts_inlineValues children h)
  | .strong children, h => by
    rw [inlineValue]
    exact plainText_of_children rfl (plainTexts_inlineValues children h)
  | .delete children, h => by
    rw [inlineValue]
    exact plainText_of_children rfl (plainTexts_inlineValues children h)
  | .link url title children, h => by
    rw [inlineValue]
    exact plainText_of_children rfl (plainTexts_inlineValues children h)
  | .linkReference key label children, h => by
    rw [inlineValue]
    simp only [Inline.isKnown, Bool.and_eq_true] at h
    exact plainText_of_children rfl (plainTexts_inlineValues children h.2)
  | .image url title children, h => by
    rw [inlineValue]
    exact plainText_of_children rfl (plainTexts_inlineValues children h)
  | .imageReference key label children, h => by
    rw [inlineValue]
    simp only [Inline.isKnown, Bool.and_eq_true] at h
    exact plainText_of_children rfl (plainTexts_inlineValues children h.2)
  | .unknown type raw [], h => by
    simp only [Inline.isKnown, Bool.and_eq_true] at h
    obtain ⟨⟨htype, hraw⟩, -⟩ := h
    obtain ⟨name, rfl, hname⟩ := eq_str_of_unknown htype
    obtain ⟨s, rfl⟩ := eq_str_of_isText hraw
    rw [inlineValue]
    refine plainText_of_raw (fun hsoft => ?_ : name ≠ "softbreak") rfl rfl rfl
    rw [hsoft] at hname
    cases hname
  | .unknown type raw (child :: children), h => by
    simp only [Inline.isKnown, Bool.and_eq_true] at h
    obtain ⟨-, hchildren⟩ := h
    rw [inlineValue]
    have hvalues : Fields.get? [("type", type), ("raw", raw),
        ("children", .list (inlineValue child :: inlineValues children))] "children" =
          some (.list (inlineValues (child :: children))) := by
      rw [inlineValues]
      rfl
    exact plainText_of_children hvalues (plainTexts_inlineValues (child :: children) hchildren)

theorem plainTexts_inlineValues : ∀ ts : List Inline, Inline.areKnown ts = true →
    plainTexts (inlineValues ts) = .ok (plainValues ts)
  | [], _ => by rw [inlineValues, plainTexts, plainValues]
  | t :: ts, h => by
    simp only [Inline.areKnown, Bool.and_eq_true] at h
    rw [inlineValues, plainTexts, plainText_inlineValue t h.1, plainTexts_inlineValues ts h.2]
    rfl

end

/-! ### Inline tokens -/

/-- The messages for an inline token. -/
def inlineSays (t : Inline) : List String := (Inline.skipped t).map (skipMessage "inline")

mutual

/-- **An inline token and its object become the same node**, with the same reports. -/
theorem says_inlineNode : ∀ t : Inline, Inline.isKnown t = true →
    Says (inlineNode (inlineValue t)) (Inline.node t) (inlineSays t)
  | .text raw, _ => by
    rw [inlineValue, token, inlineNode]
    exact .lift_bind rfl (says_pure _)
  | .softBreak, _ => by
    rw [inlineValue, token, inlineNode]
    exact .lift_bind rfl (says_pure _)
  | .lineBreak, _ => by
    rw [inlineValue, token, inlineNode]
    exact .lift_bind rfl (says_pure _)
  | .code raw, _ => by
    rw [inlineValue, token, inlineNode]
    exact .lift_bind rfl (says_pure _)
  | .math raw, _ => by
    rw [inlineValue, token, inlineNode]
    exact .lift_bind rfl (says_pure _)
  | .html raw, _ => by
    rw [inlineValue, token, inlineNode]
    exact .lift_bind rfl (says_pure _)
  | .noteReference key label, _ => by
    rw [inlineValue, token, inlineNode]
    have hkey : (if (Value.str key).truthy = true then Value.str key else .str label) =
        .str (if key.isEmpty then label else key) := by
      cases h : key.isEmpty <;> simp [Value.truthy, h]
    refine .lift_bind rfl (.lift_bind ?_ (says_pure _))
    unfold noteReferenceNode
    show (textFor "lower" (if (Value.str key).truthy = true then .str key else .str label) >>= _) = _
    rw [hkey]
    rfl
  | .emphasis children, h => by
    rw [inlineValue, token, inlineNode]
    exact .lift_bind rfl (.children rfl fun _ =>
      (says_inlineNodes children h).bind_silent (says_pure _))
  | .strong children, h => by
    rw [inlineValue, token, inlineNode]
    exact .lift_bind rfl (.children rfl fun _ =>
      (says_inlineNodes children h).bind_silent (says_pure _))
  | .delete children, h => by
    rw [inlineValue, token, inlineNode]
    exact .lift_bind rfl (.children rfl fun _ =>
      (says_inlineNodes children h).bind_silent (says_pure _))
  | .link url title children, h => by
    rw [inlineValue, token, inlineNode]
    exact .lift_bind rfl (.children rfl fun _ =>
      (says_inlineNodes children h).bind_silent (.lift_bind rfl (says_pure _)))
  | .linkReference key label children, h => by
    simp only [Inline.isKnown, Bool.and_eq_true] at h
    obtain ⟨hkey, hchildren⟩ := h
    rw [inlineValue, token, inlineNode]
    exact .lift_bind rfl (.children rfl fun _ =>
      (says_inlineNodes children hchildren).bind_silent (.lift_bind (if_pos hkey) (says_pure _)))
  | .image url title children, h => by
    rw [inlineValue, token, inlineNode]
    refine .lift_bind rfl (.lift_bind ?_ (says_pure _))
    unfold imageNode
    rw [plainChildren_eq rfl (plainTexts_inlineValues children h)]
    rfl
  | .imageReference key label children, h => by
    simp only [Inline.isKnown, Bool.and_eq_true] at h
    obtain ⟨hkey, hchildren⟩ := h
    rw [inlineValue, token, inlineNode]
    refine .lift_bind rfl (.lift_bind ?_ (says_pure _))
    unfold imageNode
    rw [plainChildren_eq rfl (plainTexts_inlineValues children hchildren)]
    exact if_pos hkey
  | .unknown type raw [], h => by
    simp only [Inline.isKnown, Bool.and_eq_true] at h
    obtain ⟨name, rfl, hname⟩ := eq_str_of_unknown h.1.1
    rw [inlineValue, inlineNode]
    exact .lift_bind (congrArg Except.ok hname) ((says_report _).bind_silent (says_pure _))
  | .unknown type raw (child :: children), h => by
    simp only [Inline.isKnown, Bool.and_eq_true] at h
    obtain ⟨name, rfl, hname⟩ := eq_str_of_unknown h.1.1
    rw [inlineValue, inlineNode]
    exact .lift_bind (congrArg Except.ok hname) ((says_report _).bind_silent (says_pure _))

theorem says_inlineNodes : ∀ ts : List Inline, Inline.areKnown ts = true →
    Says (inlineNodes (inlineValues ts)) (Inline.nodes ts) (inlineMessages ts)
  | [], _ => by
    rw [inlineValues, inlineNodes]
    exact says_pure _
  | t :: ts, h => by
    simp only [Inline.areKnown, Bool.and_eq_true] at h
    have hmessages : inlineMessages (t :: ts) = inlineSays t ++ inlineMessages ts := by
      unfold inlineMessages inlineSays
      rw [Inline.skippedEach, List.map_append]
    rw [inlineValues, inlineNodes, hmessages]
    exact (says_inlineNode t h.1).bind ((says_inlineNodes ts h.2).bind_silent (says_pure _))

end

theorem says_inlineChildren {ts : List Inline}
    (h : fields.get? "children" = some (.list (inlineValues ts)))
    (hts : Inline.areKnown ts = true) :
    Says (inlineChildren fields) (Inline.nodes ts) (inlineMessages ts) :=
  .children h fun _ => says_inlineNodes ts hts

/-! ### Tables -/

theorem cellAligns_cellValues : ∀ cells : List Cell,
    cellAligns (cells.map cellValue) = .ok (cells.map (·.align))
  | [] => rfl
  | c :: cells => by
    rw [List.map_cons, cellAligns, cellAligns_cellValues cells]
    cases hc : c.content with
    | none =>
      rw [cellValue, hc]
      rfl
    | some ts =>
      rw [cellValue, hc]
      rfl

/-- The messages for the cells of a row. -/
def cellsSay (cells : List Cell) : List String :=
  cells.flatMap fun c => inlineMessages (c.content.getD [])

theorem says_cellNodes_cons {c : Cell} {cells : List Cell} (hc : c.isKnown = true)
    (hrest : Says (cellNodes (cells.map cellValue)) (Cell.nodes cells) (cellsSay cells)) :
    Says (cellNodes ((c :: cells).map cellValue)) (Cell.nodes (c :: cells))
      (cellsSay (c :: cells)) := by
  unfold Cell.isKnown at hc
  cases hcontent : c.content with
  | none =>
    have hnodes : Cell.nodes (c :: cells) = Cell.nodes cells := by simp [Cell.nodes, hcontent]
    have hsay : cellsSay (c :: cells) = cellsSay cells := by
      simp [cellsSay, hcontent, inlineMessages, Inline.skippedEach]
    rw [List.map_cons, cellValue, hcontent, cellNodes, hnodes, hsay]
    exact .lift_bind rfl (.neg (Option.some_ne_none _).symm hrest)
  | some ts =>
    have hnodes : Cell.nodes (c :: cells) =
        .container .tableCell (Inline.nodes ts) :: Cell.nodes cells := by
      simp [Cell.nodes, hcontent]
    have hsay : cellsSay (c :: cells) = inlineMessages ts ++ cellsSay cells := by
      simp [cellsSay, hcontent]
    rw [hcontent] at hc
    rw [List.map_cons, cellValue, hcontent, cellNodes, hnodes, hsay]
    refine .lift_bind rfl (.pos rfl ?_)
    exact (says_inlineChildren rfl hc).bind (hrest.bind_silent (says_pure _))

theorem says_cellNodes : ∀ cells : List Cell, cells.all Cell.isKnown = true →
    Says (cellNodes (cells.map cellValue)) (Cell.nodes cells) (cellsSay cells)
  | [], _ => says_pure _
  | c :: cells, h => by
    simp only [List.all_cons, Bool.and_eq_true] at h
    exact says_cellNodes_cons h.1 (says_cellNodes cells h.2)

/-- The messages for rows of cells. -/
def rowsSay (rows : List (List Cell)) : List String := rows.flatMap cellsSay

theorem says_bodyRows : ∀ rows : List (List Cell),
    (rows.all fun cells => cells.all Cell.isKnown) = true →
    Says (bodyRows (rows.map (rowValue "table_row"))) (rows.map rowNode) (rowsSay rows)
  | [], _ => says_pure _
  | cells :: rows, h => by
    simp only [List.all_cons, Bool.and_eq_true] at h
    obtain ⟨hcells, hrows⟩ := h
    rw [List.map_cons, rowValue, token, bodyRows]
    exact .lift_bind rfl (.children rfl fun _ =>
      (says_cellNodes cells hcells).bind ((says_bodyRows rows hrows).bind_silent (says_pure _)))

/-- The messages for the parts of a table. -/
def partsSay (parts : List TablePart) : List String := parts.flatMap fun p => rowsSay p.rows

/-- The alignments of a table after some of its parts. -/
def alignmentsAfter (align : List Value) (parts : List TablePart) : List Value :=
  parts.foldl (fun align part =>
    match part with
    | .head cells => cells.map (·.align)
    | .body _ => align) align

theorem says_tableRows : ∀ (parts : List TablePart) (align : List Value),
    (parts.all fun p => p.rows.all fun cells => cells.all Cell.isKnown) = true →
    Says (tableRows align (parts.map partValue))
      (alignmentsAfter align parts, parts.flatMap fun p => p.rows.map rowNode) (partsSay parts)
  | [], _, _ => says_pure _
  | .head cells :: parts, align, h => by
    simp only [List.all_cons, Bool.and_eq_true] at h
    obtain ⟨hcells, hparts⟩ := h
    have hcells : cells.all Cell.isKnown = true := by simpa [TablePart.rows] using hcells
    have hsay : partsSay (.head cells :: parts) = cellsSay cells ++ partsSay parts := by
      simp [partsSay, rowsSay, TablePart.rows]
    rw [List.map_cons, partValue, rowValue, token, tableRows, hsay]
    refine .lift_bind rfl (.pos rfl (.children rfl fun _ => ?_))
    refine .lift_bind (cellAligns_cellValues cells) ?_
    exact (says_cellNodes cells hcells).bind
      ((says_tableRows parts _ hparts).bind_silent (says_pure _))
  | .body rows :: parts, align, h => by
    simp only [List.all_cons, Bool.and_eq_true] at h
    obtain ⟨hrows, hparts⟩ := h
    have hsay : partsSay (.body rows :: parts) = rowsSay rows ++ partsSay parts := by
      simp [partsSay, TablePart.rows]
    have hhead : some "table_body" ≠ some "table_head" := by decide
    rw [List.map_cons, partValue, token, tableRows, hsay]
    refine .lift_bind rfl (.neg hhead (.pos rfl (.children rfl fun _ => ?_)))
    exact (says_bodyRows rows hrows).bind
      ((says_tableRows parts align hparts).bind_silent (says_pure _))

/-- **A table and its object become the same node.** -/
theorem says_tableNode {parts : List TablePart}
    (h : fields.get? "children" = some (.list (parts.map partValue)))
    (hparts : (parts.all fun p => p.rows.all fun cells => cells.all Cell.isKnown) = true) :
    Says (tableNode fields) (Markdown.tableNode parts)
      ((skippedInTable parts).map (skipMessage "inline")) := by
  have hsay : (skippedInTable parts).map (skipMessage "inline") = partsSay parts := by
    simp only [skippedInTable, partsSay, rowsSay, List.map_flatMap]
    rfl
  rw [hsay]
  exact .children h fun _ =>
    (says_tableRows parts [] hparts).bind_silent (says_pure _)

/-! ### Blocks -/

theorem codeNode_object (raw : String) (info : Option String) :
    codeNode [("type", .str "block_code"), ("raw", .str raw), ("attrs", infoValue info)] =
      .ok (.leaf (.code (.str (dropLastBreak raw)) (language info)) none) := by
  cases info with
  | none => rfl
  | some s =>
    show (languageOf (.str s) >>= fun lang => _) = _
    rw [languageOf_str]
    rfl

theorem startOf_object {ordered : Bool} {start : Value}
    (h : (ordered || start.isNull) = true) :
    startOf ordered [("ordered", .bool ordered), ("start", start)] = start := by
  cases ordered with
  | true => rfl
  | false => cases start <;> first | rfl | cases h

mutual

/-- **A block and its object become the same nodes**, with the same reports. -/
theorem says_blockNodes : ∀ b : Block, Block.isKnown b = true →
    Says (blockNodes (blockValue b)) (Block.nodes b) (Block.messages b)
  | .heading level children, h => by
    rw [blockValue, token, blockNodes]
    refine Says.bind_silent ?_ (says_pure _)
    have hcheck : (Branch.heading (headingLevel level)).check.mapError Failure.tree = .ok () := by
      rw [(headingLevel_cases level).2]
      rfl
    exact (says_inlineChildren rfl h).bind_silent (.lift_bind hcheck (says_pure _))
  | .paragraph children, h => by
    rw [blockValue, token, blockNodes]
    exact (says_inlineChildren rfl h).bind_silent (says_pure _)
  | .code raw info, _ => by
    rw [blockValue, token, blockNodes]
    exact .lift_bind (codeNode_object raw info) (says_pure _)
  | .quote children, h => by
    rw [blockValue, token, blockNodes]
    exact .children rfl fun _ =>
      (says_blockNodesEach children h).bind_silent (says_pure _)
  | .list ordered start items, h => by
    simp only [Block.isKnown, Bool.and_eq_true] at h
    obtain ⟨hstart, hitems⟩ := h
    rw [blockValue, token, blockNodes]
    refine (says_itemNodes items hitems).bind_silent ?_
    show Says (pure [Node.of (.list (.bool ordered)
      (startOf ordered [("ordered", .bool ordered), ("start", start)])) _]) _ _
    rw [startOf_object hstart]
    exact says_pure _
  | .item children, h => by
    rw [blockValue, token, blockNodes]
    exact .children rfl fun _ =>
      (says_blockNodesEach children h).bind_silent (says_pure _)
  | .table parts, h => by
    rw [blockValue, token, blockNodes]
    exact (says_tableNode rfl h).bind_silent (says_pure _)
  | .thematicBreak, _ => by
    rw [blockValue, token, blockNodes]
    exact says_pure _
  | .html raw, _ => by
    rw [blockValue, token, blockNodes]
    exact says_pure _
  | .math raw, _ => by
    rw [blockValue, token, blockNodes]
    exact .lift_bind rfl (says_pure _)
  | .notes items, h => by
    rw [blockValue, token, blockNodes]
    exact .children rfl fun _ =>
      says_noteNodes items h
  | .blankLine, _ => by
    rw [blockValue, token, blockNodes]
    exact says_pure _
  | .unknown type, h => by
    have htype : BlockType.ofValue? (textField [("type", type)] "type") = none :=
      Option.isNone_iff_eq_none.1 h
    rw [blockValue, blockNodes, htype]
    exact (says_report _).bind_silent (says_pure _)

theorem says_blockNodesEach : ∀ bs : List Block, Block.areKnown bs = true →
    Says (blockNodesEach (blockValues bs)) (Block.nodesEach bs) (Block.messagesEach bs)
  | [], _ => by
    rw [blockValues, blockNodesEach]
    exact says_pure _
  | b :: bs, h => by
    simp only [Block.areKnown, Bool.and_eq_true] at h
    rw [blockValues, blockNodesEach, Block.messagesEach]
    exact (says_blockNodes b h.1).bind ((says_blockNodesEach bs h.2).bind_silent (says_pure _))

theorem says_itemNodes : ∀ items : List (List Block), Block.itemsAreKnown items = true →
    Says (itemNodes (itemValues items)) (Block.itemNodes items) (Block.itemMessages items)
  | [], _ => by
    rw [itemValues, itemNodes]
    exact says_pure _
  | bs :: r, h => by
    simp only [Block.itemsAreKnown, Bool.and_eq_true] at h
    rw [itemValues, token, itemNodes, Block.itemMessages]
    exact .children rfl fun _ =>
      (says_blockNodesEach bs h.1).bind ((says_itemNodes r h.2).bind_silent (says_pure _))

theorem says_noteNodes : ∀ items : List (String × List Block), Block.notesAreKnown items = true →
    Says (noteNodes (noteValues items)) (Block.noteNodes items) (Block.noteMessages items)
  | [], _ => by
    rw [noteValues, noteNodes]
    exact says_pure _
  | (key, bs) :: r, h => by
    simp only [Block.notesAreKnown, Bool.and_eq_true] at h
    rw [noteValues, token, noteNodes, Block.noteMessages]
    exact .pos rfl (.lift_bind rfl (.lift_bind rfl (.children rfl fun _ =>
      (says_blockNodesEach bs h.1).bind ((says_noteNodes r h.2).bind_silent (says_pure _)))))

end

/-! ### Documents -/

theorem linkDefinitions_handed (tokens : Markdown.Tokens) :
    linkDefinitions (handed tokens).env = .ok tokens.definitions := by
  have hfields : linkFields (handed tokens).env = .ok (tokens.definitions.map linkField) := by
    unfold handed
    cases tokens.definitions <;> rfl
  have hback : (tokens.definitions.map linkField).filterMap linkDefinition? =
      tokens.definitions := by
    rw [List.filterMap_map]
    exact List.filterMap_some
  rw [linkDefinitions, hfields, Runs.except_ok_bind, hback]
  rfl

/-- **Tokens and their objects become the same document**, with the same reports. -/
theorem document_handed (front : Option Node) {tokens : Markdown.Tokens}
    (h : Block.areKnown tokens.blocks = true) (log : List Record) :
    (handed tokens).document front log =
      (.ok (tokens.document front), log ++ tokens.records front) := by
  have hsays : Says ((handed tokens).document front) (tokens.document front)
      (Block.messagesEach tokens.blocks ++
        [s!"Parsed Markdown into {(tokens.document front).children.length} top-level nodes"]) :=
    (says_blockNodesEach tokens.blocks h).bind
      (.lift_bind (linkDefinitions_handed tokens) ((says_report _).bind_silent (says_pure _)))
  exact hsays log

/-- A text is read alike from tokens and from their objects. -/
theorem read_handed (tokenizer : Extensions → String → Except String Markdown.Tokens)
    (o : MarkdownOptions) (text : String)
    (h : ∀ tokens, tokenizer o.extensions (o.splitFront text).2 = .ok tokens →
      Block.areKnown tokens.blocks = true) :
    read (fun e s => (tokenizer e s).map handed) o text = readMarkdownWith tokenizer o text := by
  funext log
  unfold read readMarkdownWith
  dsimp only
  cases htok : tokenizer o.extensions (o.splitFront text).2 with
  | error why => rfl
  | ok tokens =>
    show (handed tokens).document _ log = _
    rw [document_handed _ (h tokens htok)]
    rfl

/-- **To read a Markdown text** is to convert the objects of its tokens with all checks. -/
theorem readMarkdown_eq_read (o : MarkdownOptions) (text : String) :
    readMarkdownWith ownTokenizer o text = read (fun e s => .ok (handed (tokenize e s))) o text :=
  (read_handed ownTokenizer o text fun tokens htokens => by
    obtain rfl := Except.ok.inj htokens
    exact areKnown_tokenize _ _).symm

end Bulletin.Markdown.Handed
