import Bulletin.Proofs.Markdown.Handed
import Bulletin.Proofs.Markdown.Rules
import Bulletin.Proofs.Page.Fitting

/-! # References in Markdown documents

A link, an image and a footnote reference name what they refer to by a key, and the node of each has the
key in small letters as its identifier. The link definitions and the footnotes have theirs in small
letters too. So if the keys in the tokens are all known, each reference of the document has the identifier
of a link definition at the end of the root, or of a footnote on its top level, and the page has an entry
for each place at which it says where to look.

* `Resolves`: a token all of whose keys are known, and so for the tokens in it.
* `known_of_converted`: the references that it becomes. `note_of_converted`: the footnotes.
* `references_resolved`: the references of a document and of its page. -/

namespace Bulletin.Markdown.Handed

open Mdast (Node Leaf Branch)
open Bulletin.Proofs
open Bulletin.Proofs.Page.Queue (footnote? definition? noteLine pageText)

/-! ### Keys in tokens -/

/-- A key of a footnote: one of the items of a footnote block on the top level has it. -/
def NoteKey (items : List Value) (key : String) : Prop :=
  ∃ block note : Fields, .dict block ∈ items ∧ typeName block = "footnotes" ∧
    .dict note ∈ tokensIn block ∧ typeName note = "footnote_item" ∧
    textField (attributes note) "key" = .str key

/-- **A token whose keys are known**: that of a link or an image stands among the link definitions, and
that of a footnote reference, which is not empty, among the footnotes. -/
structure Refers (links : Fields) (items : List Value) (fields : Fields) : Prop where
  link : typeName fields = "link" ∨ typeName fields = "image" → (fields.getD "ref").truthy = true →
    ∃ key attrs, fields.getD "ref" = .str key ∧ links.get? key = some (.dict attrs)
  note : typeName fields = "footnote_ref" →
    ∃ key, fields.getD "raw" = .str key ∧ key ≠ "" ∧ NoteKey items key

/-- **A token whose keys are known**, and so are those of the tokens in it; what is no object has none. -/
inductive Resolves (links : Fields) (items : List Value) : Value → Prop
  | token {fields : Fields} : Refers links items fields →
    (∀ t ∈ tokensIn fields, Resolves links items t) → Resolves links items (.dict fields)
  | other {v : Value} : (∀ fields, v ≠ .dict fields) → Resolves links items v

theorem Resolves.refers {links : Fields} {items : List Value} {fields : Fields}
    (h : Resolves links items (.dict fields)) :
    Refers links items fields ∧ ∀ t ∈ tokensIn fields, Resolves links items t := by
  cases h with
  | token hrefers hinner => exact ⟨hrefers, hinner⟩
  | other hother => exact absurd rfl (hother fields)

theorem resolves_of_other {links : Fields} {items : List Value} {fields : Fields}
    (h : typeName fields ∉ ["link", "image", "footnote_ref"])
    (hinner : ∀ t ∈ tokensIn fields, Resolves links items t) :
    Resolves links items (.dict fields) := by
  simp only [List.mem_cons, List.not_mem_nil, or_false, not_or] at h
  obtain ⟨hlink, himage, hnote⟩ := h
  exact .token ⟨fun hname => (hname.elim hlink himage).elim, fun hname => absurd hname hnote⟩ hinner

/-! ### Identifiers of nodes -/

/-- The identifier of the link definition that a node refers to. -/
def linkTarget? : Node → Option Value
  | .branch (.linkReference identifier _) _ _ => some identifier
  | .leaf (.imageReference identifier _ _) _ => some identifier
  | _ => none

/-- The identifier of the footnote that a node refers to. -/
def noteTarget? : Node → Option Value
  | .leaf (.footnoteReference identifier _) _ => some identifier
  | _ => none

/-- A node that refers only to what has a known key: its identifier is this key in small letters. -/
structure Known (links : Fields) (items : List Value) (m : Node) : Prop where
  link : ∀ id, linkTarget? m = some id →
    ∃ key attrs, links.get? key = some (.dict attrs) ∧ id = .str (Text.lower key)
  note : ∀ id, noteTarget? m = some id → ∃ key, NoteKey items key ∧ id = .str (Text.lower key)

theorem known_of_no_target {links : Fields} {items : List Value} {m : Node}
    (hlink : linkTarget? m = none) (hnote : noteTarget? m = none) : Known links items m :=
  ⟨by simp [hlink], by simp [hnote]⟩

theorem known_of_link {links : Fields} {items : List Value} {m : Node} {key : String}
    {attrs : Fields} (hattrs : links.get? key = some (.dict attrs))
    (hlink : linkTarget? m = some (.str (Text.lower key))) (hnote : noteTarget? m = none) :
    Known links items m :=
  ⟨fun id hid => ⟨key, attrs, hattrs, (Option.some.inj (hlink.symm.trans hid)).symm⟩,
    by simp [hnote]⟩

section Conversion
variable {links : Fields} {items : List Value} {role inner : Role} {fields : Fields} {l : Leaf}
  {b : Branch} {vs : List Value} {ns : List Node}

theorem known_of_becomes (hrefers : Refers links items fields) (h : Becomes role fields l) :
    Known links items (.leaf l none) := by
  cases h with
  | noteReference htype hkey =>
    have hname : typeName fields = "footnote_ref" := by
      simpa [InlineType.table] using mem_inlineTypes htype
    obtain ⟨key, hraw, hne, hnote⟩ := hrefers.note hname
    have htruthy : (Value.str key).truthy = true := by simpa [Value.truthy] using hne
    rw [hraw, if_pos htruthy] at hkey
    cases hkey
    exact ⟨by simp [linkTarget?], fun id hid => ⟨_, hnote, (Option.some.inj hid).symm⟩⟩
  | imageReference htype _ href hkey =>
    have hname : typeName fields = "image" := by
      simpa [InlineType.table] using mem_inlineTypes htype
    obtain ⟨key, attrs, hlink, hattrs⟩ := hrefers.link (.inr hname) href
    cases hlink.symm.trans hkey
    exact known_of_link hattrs rfl rfl
  | _ => exact known_of_no_target rfl rfl

theorem known_of_opens (hrefers : Refers links items fields) (h : Opens role fields inner b) :
    Known links items (.of b ns) := by
  cases h with
  | linkReference htype href hkey =>
    have hname : typeName fields = "link" := by
      simpa [InlineType.table] using mem_inlineTypes htype
    obtain ⟨key, attrs, hlink, hattrs⟩ := hrefers.link (.inl hname) href
    cases hlink.symm.trans hkey
    exact known_of_link hattrs rfl rfl
  | _ => exact known_of_no_target rfl rfl

/-- **The references that tokens become** refer to what has a known key. -/
theorem known_of_converted (h : Converted role vs ns) (hall : ∀ v ∈ vs, Resolves links items v) :
    ∀ n ∈ ns, n.All (Known links items) := by
  induction h with
  | nil => simp
  | cons _ _ ihfirst ihrest =>
    obtain ⟨hv, hvs⟩ := List.forall_mem_cons.1 hall
    intro n hn
    exact (List.mem_append.1 hn).elim (ihfirst (by simpa using hv) n) (ihrest hvs n)
  | vanish _ => simp
  | leaf hl =>
    obtain ⟨hrefers, -⟩ := (hall _ List.mem_cons_self).refers
    simpa using known_of_becomes hrefers hl
  | branch hb _ ih =>
    obtain ⟨hrefers, hinner⟩ := (hall _ List.mem_cons_self).refers
    simp only [List.mem_singleton, forall_eq]
    exact Node.all_branch.2 ⟨known_of_opens hrefers hb, ih hinner⟩
  | splice _ _ ih =>
    obtain ⟨-, hinner⟩ := (hall _ List.mem_cons_self).refers
    exact ih hinner

theorem attributes_of_attributesOf {attrs : Fields} (h : attributesOf fields = .ok attrs) :
    attributes fields = attrs := by
  have hattrs := fieldsOf_eq_ok.1 h
  unfold attributes Fields.getD
  cases hget : fields.get? "attrs" with
  | none =>
    rw [hget] at hattrs
    cases hattrs
    rfl
  | some v =>
    rw [hget] at hattrs
    cases hattrs
    rfl

/-- The items of a footnote block become footnotes, each with its key in small letters. -/
theorem note_of_converted {note : Fields} {key : String} (h : Converted role vs ns)
    (hrole : role = .note) (hmem : .dict note ∈ vs) (hname : typeName note = "footnote_item")
    (hkey : textField (attributes note) "key" = .str key) :
    ∃ ms, .of (.footnoteDefinition (.str (Text.lower key)) .null) ms ∈ ns := by
  induction h with
  | nil => cases hmem
  | cons _ _ ihfirst ihrest =>
    rcases List.mem_cons.1 hmem with rfl | hmem
    · obtain ⟨ms, hms⟩ := ihfirst hrole List.mem_cons_self
      exact ⟨ms, List.mem_append_left _ hms⟩
    · obtain ⟨ms, hms⟩ := ihrest hrole hmem
      exact ⟨ms, List.mem_append_right _ hms⟩
  | vanish hvanish =>
    subst hrole
    obtain rfl := List.mem_singleton.1 hmem
    cases hvanish with
    | note hother => exact absurd ((type_eq_iff (by decide)).2 hname) hother
  | leaf hl =>
    subst hrole
    cases hl
  | @branch _ _ _ _ ns hb _ _ =>
    subst hrole
    cases List.mem_singleton.1 hmem
    cases hb with
    | note _ hattrs hown =>
      rw [attributes_of_attributesOf hattrs] at hkey
      cases hkey.symm.trans hown
      exact ⟨ns, List.mem_cons_self⟩
  | splice hsplices _ _ =>
    subst hrole
    cases hsplices

theorem notes_of_converted {block : Fields} (h : Converted role vs ns) (hrole : role = .block)
    (hmem : .dict block ∈ vs) (hname : typeName block = "footnotes") :
    ∃ ms, Converted .note (tokensIn block) ms ∧ ∀ m ∈ ms, m ∈ ns := by
  have htype : BlockType.ofValue? (textField block "type") = some .notes := by
    rw [blockType_eq, hname]
    rfl
  induction h with
  | nil => cases hmem
  | cons _ _ ihfirst ihrest =>
    rcases List.mem_cons.1 hmem with rfl | hmem
    · obtain ⟨ms, hms, hsub⟩ := ihfirst hrole List.mem_cons_self
      exact ⟨ms, hms, fun m hm => List.mem_append_left _ (hsub m hm)⟩
    · obtain ⟨ms, hms, hsub⟩ := ihrest hrole hmem
      exact ⟨ms, hms, fun m hm => List.mem_append_right _ (hsub m hm)⟩
  | vanish hvanish =>
    subst hrole
    obtain rfl := List.mem_singleton.1 hmem
    cases hvanish with
    | block hblank => cases hblank _ htype
  | leaf hl =>
    subst hrole
    cases List.mem_singleton.1 hmem
    cases hl with
    | code h _ _ | thematicBreak h | html h | math h _ => cases htype.symm.trans h
  | branch hb _ _ =>
    subst hrole
    cases List.mem_singleton.1 hmem
    cases hb with
    | heading h | paragraph h | container h | list h | table h => cases htype.symm.trans h
  | @splice _ _ _ ns hsplices hinner _ =>
    subst hrole
    cases List.mem_singleton.1 hmem
    cases hsplices
    exact ⟨ns, hinner, fun _ => id⟩

end Conversion

/-! ### Entries of a page -/

/-- Lines among which there is an entry for an identifier. -/
def HasEntry (lines : List String) (id : Value) : Prop :=
  ∃ rest, "\n^" ++ id.display ++ ": " ++ rest ∈ lines

/-- **A node whose placeholder on a page points to an entry**: where it says to look for a link
definition there is one among the lines of the link definitions, and so for a footnote. -/
structure Entered (p : PageOptions) (definitionLines noteLines : List String) (m : Node) : Prop where
  link : ∀ id label ns loc, m = .branch (.linkReference id label) ns loc →
    HasEntry definitionLines id ∧ ∀ pass rendered after,
      Page.visit p m pass = (.ok rendered, after) →
        ∃ content, rendered.text = .str ("(See " ++ id.display ++ "; " ++ content ++ ")")
  image : ∀ id alt label loc, m = .leaf (.imageReference id alt label) loc →
    HasEntry definitionLines id ∧ ∀ pass rendered after,
      Page.visit p m pass = (.ok rendered, after) →
        rendered.text = .str ("[" ++ id.display ++ "] " ++ alt.display)
  note : ∀ id label loc, m = .leaf (.footnoteReference id label) loc →
    HasEntry noteLines id ∧ ∀ pass rendered after,
      Page.visit p m pass = (.ok rendered, after) →
        rendered.text = .str ("(See ^" ++ id.display ++ ")")

section Page
variable {p : PageOptions} {ns : List Node} {m : Node}

theorem mem_metEach_of_mem (h : m ∈ ns) : m ∈ Page.Queue.metEach ns :=
  Page.Queue.mem_metEach.2 ⟨m, h, by cases m <;> simp [Page.Queue.met]⟩

theorem hasEntry_of_definition {d : Mdast.Definition} (h : .leaf (.definition d) none ∈ ns) :
    HasEntry ((Page.Whole.definitions ns).map Page.Whole.definitionEntry) d.identifier := by
  have hmet : d ∈ Page.Queue.definitionsMet ns :=
    List.mem_filterMap.2 ⟨_, mem_metEach_of_mem h, rfl⟩
  have hd : d ∈ Page.Whole.definitions ns := List.mem_append_left _ hmet
  have hline : Page.Whole.definitionEntry d = "\n^" ++ d.identifier.display ++ ": " ++
      ("[url=" ++ d.url.display ++ "]" ++
        ((if d.title.truthy then d.title.display else d.identifier.display) ++ "[/url]")) := by
    simp only [Page.Whole.definitionEntry, String.append_assoc]
  exact ⟨_, List.mem_map.2 ⟨d, hd, hline⟩⟩

theorem hasEntry_of_note {id : Value} {ms : List Node}
    (h : .of (.footnoteDefinition id .null) ms ∈ ns) :
    HasEntry ((Page.Whole.notes ns).map (noteLine p)) id := by
  have hmet : ⟨id, .null, ms⟩ ∈ Page.Queue.footnotesMet ns :=
    List.mem_filterMap.2 ⟨_, mem_metEach_of_mem h, rfl⟩
  have hnote : ⟨id, .null, ms⟩ ∈ Page.Whole.notes ns := by
    rw [Page.Whole.notes, Page.Queue.breadthFirst_eq]
    exact List.mem_append_left _ hmet
  have hline : noteLine p ⟨id, .null, ms⟩ =
      "\n^" ++ id.display ++ ": " ++ Text.strip (pageText p ms) := rfl
  exact ⟨_, List.mem_map.2 ⟨_, hnote, hline⟩⟩

/-- A page that is assembled ends with the lines of what the walk has captured. -/
theorem captured_of_assemble {records : List Record} {page : String} {after : Page.Pass}
    (h : Bulletin.Page.assemble p ns { log := records } = (.ok page, after)) :
    page = Page.Whole.rawPage p ns ∧ after.state.definitions = Page.Whole.definitions ns ∧
      after.state.footnotes = Page.Whole.notes ns := by
  rw [Page.Whole.assemble_of_allText (Page.Fitting.allText_of_assemble h)] at h
  cases h
  exact ⟨rfl, rfl, rfl⟩

theorem entered_of_hasEntry {definitionLines noteLines : List String}
    (hlink : ∀ id, linkTarget? m = some id → HasEntry definitionLines id)
    (hnote : ∀ id, noteTarget? m = some id → HasEntry noteLines id) :
    Entered p definitionLines noteLines m := by
  refine ⟨?_, ?_, ?_⟩
  · rintro id label ns loc rfl
    refine ⟨hlink id rfl, fun pass rendered after h => ?_⟩
    rw [Page.Walk.visit_of_flows rfl] at h
    obtain ⟨content, s, -, h⟩ := Runs.bind_eq_ok.1 h
    obtain ⟨rfl, rfl⟩ := Runs.pure_eq_ok.1 h
    exact ⟨content, rfl⟩
  · rintro id alt label loc rfl
    refine ⟨hlink id rfl, fun pass rendered after h => ?_⟩
    rw [Page.visit] at h
    obtain ⟨rfl, rfl⟩ := Runs.pure_eq_ok.1 h
    rfl
  · rintro id label loc rfl
    refine ⟨hnote id rfl, fun pass rendered after h => ?_⟩
    rw [Page.visit] at h
    obtain ⟨rfl, rfl⟩ := Runs.pure_eq_ok.1 h
    rfl

end Page

/-! ### The references of a document -/

section Document
variable {links : Fields} {items : List Value} {ns : List Node}

theorem definition_of_get? {key : String} {attrs : Fields}
    (h : links.get? key = some (.dict attrs)) :
    ∃ d : Mdast.Definition, .leaf (.definition d) none ∈
        (links.filterMap linkDefinition?).map LinkDefinition.node ∧
      d.identifier = .str (Text.lower key) :=
  ⟨_, List.mem_map_of_mem (List.mem_filterMap.2 ⟨_, mem_of_lookup h, rfl⟩), rfl⟩

theorem mem_subtrees_of_child {m : Node} {p : Option Mdast.Location} {b : Branch} (h : m ∈ ns) :
    m ∈ (Node.branch b ns p).subtrees := by
  refine List.mem_cons_of_mem _ (Node.mem_subtreesEach.2 ⟨m, h, ?_⟩)
  cases m <;> simp [Node.subtrees]

theorem note_of_noteKey {key : String} (h : NoteKey items key) (hns : Converted .block items ns) :
    ∃ ms, .of (.footnoteDefinition (.str (Text.lower key)) .null) ms ∈ ns := by
  obtain ⟨block, note, hblock, hfootnotes, hnote, hitem, hkey⟩ := h
  obtain ⟨rest, hrest, hsub⟩ := notes_of_converted hns rfl hblock hfootnotes
  obtain ⟨ms, hms⟩ := note_of_converted hrest rfl hnote hitem hkey
  exact ⟨ms, hsub _ hms⟩

end Document

/-- **The references of a document resolve.** If the keys in its tokens are known, each reference to a
link definition has the identifier of one at the end of the root, and each reference to a footnote that
of a footnote in the tree. If a page is assembled of it, the page ends with the lines of the link
definitions and those of the footnotes, and each placeholder of a reference points to one of them. -/
theorem references_resolved {tokenizer : Extensions → String → Except String Tokens}
    {o : MarkdownOptions} {text : String} {given : Tokens} {links : Fields} {root : Node}
    {log log' : List Record} (hgiven : tokenizer o.extensions (o.splitFront text).2 = .ok given)
    (hlinks : linkFields given.env = .ok links)
    (hall : ∀ v ∈ given.items, Resolves links given.items v)
    (h : read tokenizer o text log = (.ok root, log')) :
    ∃ (nodes : List Node) (ds : List LinkDefinition),
      root = .container .root (nodes ++ ds.map LinkDefinition.node) ∧
      (∀ m ∈ root.subtrees, ∀ id, linkTarget? m = some id →
        ∃ n ∈ ds.map LinkDefinition.node, ∃ d, definition? n = some d ∧ d.identifier = id) ∧
      (∀ m ∈ root.subtrees, ∀ id, noteTarget? m = some id →
        ∃ n ∈ root.subtrees, ∃ f, footnote? n = some f ∧ f.identifier = id) ∧
      ∀ (p : PageOptions) (records : List Record) (page : String) (after : Page.Pass),
        Bulletin.Page.assemble p root.children { log := records } = (.ok page, after) →
          page = pageText p root.children ++
            "\n".intercalate (after.state.definitions.map Page.Whole.definitionEntry) ++
            "\n".intercalate (after.state.footnotes.map (noteLine p)) ∧
          ∀ m ∈ root.subtrees,
            Entered p (after.state.definitions.map Page.Whole.definitionEntry)
              (after.state.footnotes.map (noteLine p)) m := by
  obtain ⟨given', ns, links', hgiven', hns, hlinks', rfl⟩ := converted_read h
  cases hgiven.symm.trans hgiven'
  cases hlinks.symm.trans hlinks'
  set ds := links.filterMap linkDefinition? with hds
  rw [← List.append_assoc]
  set nodes := (o.splitFront text).1.toList ++ ns with hnodes
  have hknown : (Node.container .root (nodes ++ ds.map LinkDefinition.node)).All
      (Known links given.items) := by
    -- Front matter and link definitions refer to nothing.
    refine Node.all_branch.2 ⟨known_of_no_target rfl rfl, fun n hn => ?_⟩
    rcases List.mem_append.1 hn with hn | hn
    · rcases List.mem_append.1 hn with hn | hn
      · obtain ⟨k, v, rfl, -⟩ := eq_literal_of_front (Option.mem_toList.1 hn)
        exact Node.all_leaf.2 (known_of_no_target rfl rfl)
      · exact known_of_converted hns hall n hn
    · obtain ⟨d, -, rfl⟩ := List.mem_map.1 hn
      exact Node.all_leaf.2 (known_of_no_target rfl rfl)
  have hlink : ∀ m ∈ (Node.container .root (nodes ++ ds.map LinkDefinition.node)).subtrees,
      ∀ id, linkTarget? m = some id → ∃ d : Mdast.Definition,
        .leaf (.definition d) none ∈ ds.map LinkDefinition.node ∧ d.identifier = id := by
    intro m hm id hid
    obtain ⟨key, attrs, hattrs, rfl⟩ := (hknown m hm).link id hid
    exact definition_of_get? hattrs
  have hnote : ∀ m ∈ (Node.container .root (nodes ++ ds.map LinkDefinition.node)).subtrees,
      ∀ id, noteTarget? m = some id →
        ∃ ms, .of (.footnoteDefinition id .null) ms ∈ nodes ++ ds.map LinkDefinition.node := by
    intro m hm id hid
    obtain ⟨key, hkey, rfl⟩ := (hknown m hm).note id hid
    obtain ⟨ms, hms⟩ := note_of_noteKey hkey hns
    exact ⟨ms, List.mem_append_left _ (List.mem_append_right _ hms)⟩
  refine ⟨nodes, ds, rfl, fun m hm id hid => ?_, fun m hm id hid => ?_, ?_⟩
  · obtain ⟨d, hd, hidentifier⟩ := hlink m hm id hid
    exact ⟨_, hd, d, rfl, hidentifier⟩
  · obtain ⟨ms, hms⟩ := hnote m hm id hid
    exact ⟨_, mem_subtrees_of_child hms, _, rfl, rfl⟩
  · intro p records page after hpage
    obtain ⟨rfl, hdefinitions, hnotes⟩ := captured_of_assemble hpage
    rw [hdefinitions, hnotes]
    refine ⟨rfl, fun m hm => entered_of_hasEntry (fun id hid => ?_) fun id hid => ?_⟩
    · obtain ⟨d, hd, rfl⟩ := hlink m hm id hid
      exact hasEntry_of_definition (List.mem_append_right _ hd)
    · obtain ⟨ms, hms⟩ := hnote m hm id hid
      exact hasEntry_of_note hms

/-- A paragraph with references to a link definition and to a footnote, which has an image in it. -/
def crossing : Tokens where
  tokens := .list [
    token "paragraph" [("children", .list [
      token "link" [("ref", .str "ÜBER"), ("children", .list [])],
      token "footnote_ref" [("raw", .str "A")]])],
    token "footnotes" [("children", .list [
      token "footnote_item" [("attrs", .dict [("key", .str "A")]), ("children", .list [
        token "paragraph" [("children", .list [token "image" [("ref", .str "ÜBER")]])]])]])]]
  env := .dict [("ref_links", .dict [("ÜBER", .dict [("url", .str "nexus.example")])])]

/-- The link definitions that the references name. -/
def crossingLinks : Fields := [("ÜBER", .dict [("url", .str "nexus.example")])]

theorem references_resolved_crossing : linkFields crossing.env = .ok crossingLinks ∧
    (∀ v ∈ crossing.items, Resolves crossingLinks crossing.items v) ∧
    ∃ root log', read (fun _ _ => .ok crossing) {} "[x][über]" [] = (.ok root, log') ∧
      ∃ (nodes : List Node) (ds : List LinkDefinition),
        root = .container .root (nodes ++ ds.map LinkDefinition.node) ∧
        (∀ m ∈ root.subtrees, ∀ id, linkTarget? m = some id →
          ∃ n ∈ ds.map LinkDefinition.node, ∃ d, definition? n = some d ∧ d.identifier = id) ∧
        (∀ m ∈ root.subtrees, ∀ id, noteTarget? m = some id →
          ∃ n ∈ root.subtrees, ∃ f, footnote? n = some f ∧ f.identifier = id) ∧
        ∀ (p : PageOptions) (records : List Record) (page : String) (after : Page.Pass),
          Bulletin.Page.assemble p root.children { log := records } = (.ok page, after) →
            page = pageText p root.children ++
              "\n".intercalate (after.state.definitions.map Page.Whole.definitionEntry) ++
              "\n".intercalate (after.state.footnotes.map (noteLine p)) ∧
            ∀ m ∈ root.subtrees,
              Entered p (after.state.definitions.map Page.Whole.definitionEntry)
                (after.state.footnotes.map (noteLine p)) m := by
  have hlinks : linkFields crossing.env = .ok crossingLinks := rfl
  have hkey : NoteKey crossing.items "A" :=
    ⟨_, _, List.mem_cons_of_mem _ List.mem_cons_self, rfl, List.mem_cons_self, rfl, rfl⟩
  have hall : ∀ v ∈ crossing.items, Resolves crossingLinks crossing.items v := by
    have hlink : Resolves crossingLinks crossing.items
        (token "link" [("ref", .str "ÜBER"), ("children", .list [])]) :=
      .token ⟨fun _ _ => ⟨_, _, rfl, rfl⟩, fun h => absurd h (by decide)⟩ nofun
    have himage : Resolves crossingLinks crossing.items (token "image" [("ref", .str "ÜBER")]) :=
      .token ⟨fun _ _ => ⟨_, _, rfl, rfl⟩, fun h => absurd h (by decide)⟩ nofun
    have hnote : Resolves crossingLinks crossing.items (token "footnote_ref" [("raw", .str "A")]) :=
      .token ⟨fun h => absurd h (by decide), fun _ => ⟨_, rfl, by decide, hkey⟩⟩ nofun
    refine forall_mem_pair (resolves_of_other (by decide) ?_) (resolves_of_other (by decide) ?_)
    · exact forall_mem_pair hlink hnote
    · refine List.forall_mem_singleton.2 (resolves_of_other (by decide) ?_)
      refine List.forall_mem_singleton.2 (resolves_of_other (by decide) ?_)
      exact List.forall_mem_singleton.2 himage
  have hone : ∀ {v : Value}, Shaped v → ∀ t ∈ [v], Shaped t := List.forall_mem_singleton.2
  have hshaped : ∀ items, crossing.tokens = .list items → ∀ t ∈ items, Shaped t := by
    rintro items ⟨⟩
    refine forall_mem_pair (.branch rfl rfl ?_) (.branch rfl rfl ?_)
    · exact forall_mem_pair (.branch rfl rfl nofun) (.leaf rfl rfl)
    · exact hone (.branch rfl rfl (hone (.branch rfl rfl (hone (.leaf rfl rfl)))))
  obtain ⟨ds, hds, -⟩ := linkDefinitions_eq (show isEnvironment crossing.env = true from rfl)
  obtain ⟨root, log', hread, -⟩ := succeeds_document filled_front hshaped hds []
  have hrun : read (fun _ _ => .ok crossing) {} "[x][über]" [] = _ := congrFun (read_eq rfl) []
  rw [← hrun] at hread
  have hresolved := references_resolved rfl hlinks hall hread
  exact ⟨hlinks, hall, root, log', hread, hresolved⟩

end Bulletin.Markdown.Handed
