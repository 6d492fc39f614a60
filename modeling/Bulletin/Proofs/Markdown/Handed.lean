import Bulletin.Proofs.Markdown.Shape
import Bulletin.Proofs.Page.Maxima
import Bulletin.Proofs.Page.Whole
import Bulletin.Proofs.Text.Words

/-! # Handed over tokens are always converted

On tokens in the shape that a tokenizer gives them, and on an environment whose link definitions have
texts as their places, no step of the conversion fails: what a step asks a value for is there. What
comes out is a root whose nodes hold texts and whose headings have levels from 1 to 6, and it can be
rendered with any options.

* `succeeds_inlineNode`, `succeeds_blockNodes`: the conversion of a token, by induction on its shape.
* `succeeds_document`: the conversion of all tokens.
* `read_shaped`: the conversion of a text that is cut into such tokens, and its page. -/

namespace Bulletin.Markdown.Handed

open Mdast (Node Leaf Branch)
open Bulletin.Proofs

variable {fields : Fields} {v : Value} {vs : List Value}

/-! ### Conversions that succeed -/

section Succeeds
variable {α β : Type} {P : α → Prop} {Q : β → Prop} {x : Logged Failure α}

/-- **A conversion that succeeds**, whatever has been reported before it, with a result of which
something holds. -/
def Succeeds (x : Logged Failure α) (P : α → Prop) : Prop :=
  ∀ log, ∃ a log', x log = (.ok a, log') ∧ P a

theorem succeeds_pure {a : α} (h : P a) : Succeeds (pure a) P := fun log => ⟨a, log, rfl, h⟩

theorem succeeds_lift {r : Except Failure α} {a : α} (hr : r = .ok a) (h : P a) :
    Succeeds (Logged.lift r) P := fun log => ⟨a, log, by rw [hr]; rfl, h⟩

theorem succeeds_report (level : Level) (source : Bulletin.Source) (message : String) :
    Succeeds (Logged.report level source message) fun _ => True := fun _ => ⟨(), _, rfl, trivial⟩

/-- **What is done next may rely on what holds of the result.** -/
theorem Succeeds.bind {k : α → Logged Failure β} (hx : Succeeds x P)
    (hk : ∀ a, P a → Succeeds (k a) Q) : Succeeds (x >>= k) Q := by
  intro log
  obtain ⟨a, log', ha, hP⟩ := hx log
  obtain ⟨b, log'', hb, hQ⟩ := hk a hP log'
  exact ⟨b, log'', (Runs.bind_ok ha).trans hb, hQ⟩

theorem Succeeds.lift_bind {r : Except Failure α} {a : α} {k : α → Logged Failure β}
    (hr : r = .ok a) (hk : Succeeds (k a) Q) : Succeeds (Logged.lift r >>= k) Q :=
  (succeeds_lift hr rfl : Succeeds (Logged.lift r) (· = a)).bind fun _ hb => hb ▸ hk

end Succeeds

/-! ### Inline tokens -/

theorem joinTexts_of_texts : ∀ {vs : List Value} {i : ℕ}, (∀ v ∈ vs, v.isText = true) →
    ∃ s, Page.joinTexts i vs = .ok s
  | [], _, _ => ⟨"", rfl⟩
  | v :: vs, i, h => by
    obtain ⟨hv, hvs⟩ := List.forall_mem_cons.1 h
    obtain ⟨s, rfl⟩ := eq_str_of_isText hv
    obtain ⟨t, ht⟩ := joinTexts_of_texts (i := i + 1) hvs
    exact ⟨s ++ t, by rw [Page.joinTexts, ht]; rfl⟩

theorem plainTexts_of_each : ∀ {vs : List Value}, (∀ v ∈ vs, ∃ s, plainText v = .ok (.str s)) →
    ∃ texts, plainTexts vs = .ok texts ∧ ∀ t ∈ texts, t.isText = true
  | [], _ => ⟨[], by rw [plainTexts], by simp⟩
  | v :: vs, h => by
    obtain ⟨⟨s, hs⟩, hvs⟩ := List.forall_mem_cons.1 h
    obtain ⟨texts, htexts, hall⟩ := plainTexts_of_each hvs
    refine ⟨.str s :: texts, ?_, List.forall_mem_cons.2 ⟨rfl, hall⟩⟩
    rw [plainTexts, hs, htexts]
    rfl

theorem plainChildren_of_each (h : isFielded fields = true)
    (hall : ∀ l, fields.get? "children" = some (.list l) →
      ∀ t ∈ l, ∃ s, plainText t = .ok (.str s)) : ∃ s, plainChildren fields = .ok s := by
  obtain ⟨items, hitems, hmem⟩ := plainItems_eq h
  have heach : ∀ t ∈ items.1, ∃ s, plainText t = .ok (.str s) := fun t ht => by
    obtain ⟨l, hl, htl⟩ := hmem t ht
    exact hall l hl t htl
  obtain ⟨texts, htexts, htext⟩ := plainTexts_of_each heach
  obtain ⟨s, hs⟩ := joinTexts_of_texts (i := 0) htext
  refine ⟨s, ?_⟩
  rw [plainChildren, hitems, Runs.except_ok_bind, htexts, Runs.except_ok_bind, hs]
  rfl

/-- **The plain text of a token is a text.** -/
theorem plainText_of_shaped (h : Shaped v) : ∃ s, plainText v = .ok (.str s) := by
  induction h with
  | mk fields hf _ ih =>
    obtain ⟨-, hraw, -⟩ := isFielded_iff hf
    obtain ⟨s, hs⟩ := plainChildren_of_each hf ih
    rw [plainText]
    split_ifs
    · exact ⟨s, by rw [hs]; rfl⟩
    · exact ⟨" ", rfl⟩
    · obtain ⟨r, hr⟩ := textField_eq hraw
      exact ⟨r, by rw [hr]⟩

theorem inlineType_eq (h : isFielded fields = true) : ∃ type,
    InlineType.ofValue? (textField fields "type") = .ok type := by
  obtain ⟨htype, -⟩ := isFielded_iff h
  obtain ⟨name, hname⟩ := textField_eq htype
  rw [hname]
  exact ⟨_, rfl⟩

theorem noteReferenceNode_eq (h : isFielded fields = true) :
    ∃ n, noteReferenceNode fields = .ok n ∧ Filled n := by
  obtain ⟨-, hraw, -⟩ := isFielded_iff h
  obtain ⟨-, -, hlabel, -⟩ := areAttributes_iff.1 (areAttributes_attributes h)
  have hkey : ∃ s, (if (fields.getD "raw").truthy = true then fields.getD "raw"
      else textField (attributes fields) "label") = .str s := by
    split_ifs with ht
    · exact getD_eq_of_truthy hraw ht
    · exact textField_eq hlabel
  obtain ⟨s, hs⟩ := hkey
  unfold noteReferenceNode
  dsimp only
  rw [hs]
  exact ⟨_, rfl, filled_leaf rfl⟩

theorem linkNode_eq (h : isFielded fields = true) {ns : List Node} (hns : ∀ n ∈ ns, Filled n) :
    ∃ n, linkNode fields ns = .ok n ∧ Filled n := by
  obtain ⟨-, -, href, hlabel, -, -⟩ := isFielded_iff h
  obtain ⟨hurl, -, -, htitle, -⟩ := areAttributes_iff.1 (areAttributes_attributes h)
  unfold linkNode
  dsimp only
  split_ifs with ht
  · obtain ⟨s, hs⟩ := getD_eq_of_truthy href ht
    rw [hs]
    refine ⟨_, rfl, filled_of ?_ hns⟩
    simp [branchIsFilled, Value.isText, isTextOrNull_getD hlabel]
  · obtain ⟨s, hs⟩ := textField_eq hurl
    rw [hs]
    refine ⟨_, rfl, filled_of ?_ hns⟩
    simp [branchIsFilled, Value.isText, isTextOrNull_getD htitle]

theorem imageNode_eq (h : Shaped (.dict fields)) : ∃ n, imageNode fields = .ok n ∧ Filled n := by
  obtain ⟨_, hf, hall⟩ := h
  obtain ⟨-, -, href, hlabel, -, -⟩ := isFielded_iff hf
  obtain ⟨hurl, -, -, htitle, -⟩ := areAttributes_iff.1 (areAttributes_attributes hf)
  obtain ⟨alt, halt⟩ := plainChildren_of_each hf fun l hl t ht =>
    plainText_of_shaped (hall l hl t ht)
  unfold imageNode
  dsimp only
  rw [halt, Runs.except_ok_bind]
  split_ifs with ht
  · obtain ⟨s, hs⟩ := getD_eq_of_truthy href ht
    rw [hs]
    refine ⟨_, rfl, filled_leaf ?_⟩
    simp [leafIsFilled, Value.isText, isTextOrNull_getD hlabel]
  · obtain ⟨s, hs⟩ := textField_eq hurl
    rw [hs]
    refine ⟨_, rfl, filled_leaf ?_⟩
    simp [leafIsFilled, Value.isText, isTextOrNull_getD htitle]

theorem succeeds_inlineNodes_of_each : ∀ {vs : List Value},
    (∀ v ∈ vs, Succeeds (inlineNode v) fun n => ∀ m ∈ n, Filled m) →
      Succeeds (inlineNodes vs) fun ns => ∀ n ∈ ns, Filled n
  | [], _ => by
    rw [inlineNodes]
    exact succeeds_pure (by simp)
  | v :: vs, h => by
    obtain ⟨hv, hvs⟩ := List.forall_mem_cons.1 h
    rw [inlineNodes]
    refine hv.bind fun n hn => (succeeds_inlineNodes_of_each hvs).bind fun ns hns => ?_
    refine succeeds_pure fun m hm => ?_
    rcases List.mem_append.1 hm with hm | hm
    · exact hn m (Option.mem_toList.1 hm)
    · exact hns m hm

/-- **An inline token is converted**, by induction on its shape. -/
theorem succeeds_inlineNode (h : Shaped v) :
    Succeeds (inlineNode v) fun n => ∀ m ∈ n, Filled m := by
  induction h with
  | mk fields hf hall ih =>
    have hshaped : Shaped (.dict fields) := .mk fields hf hall
    obtain ⟨-, hraw, -⟩ := isFielded_iff hf
    obtain ⟨type, htype⟩ := inlineType_eq hf
    obtain ⟨items, hitems, hmem⟩ := childTokens_eq hf
    have hchildren : Succeeds (inlineNodes items.1) fun ns => ∀ n ∈ ns, Filled n :=
      succeeds_inlineNodes_of_each fun t ht => by
        obtain ⟨l, hl, htl⟩ := hmem t ht
        exact ih l hl t htl
    have hsome : ∀ {m : Node}, Filled m → Succeeds (pure (some m) : Logged Failure (Option Node))
        fun n => ∀ m ∈ n, Filled m := fun hm => succeeds_pure (by simpa using hm)
    rw [inlineNode]
    refine .lift_bind htype ?_
    cases type with
    | none => exact (succeeds_report _ _ _).bind fun _ _ => succeeds_pure (by simp)
    | some type =>
      cases type with
      | literal k =>
        obtain ⟨s, hs⟩ := textField_eq hraw
        dsimp only
        rw [hs]
        exact hsome (filled_leaf rfl)
      | container k =>
        refine .lift_bind hitems (hchildren.bind fun ns hns => hsome ?_)
        exact filled_of rfl hns
      | softBreak => exact hsome (filled_leaf rfl)
      | lineBreak => exact hsome (filled_leaf rfl)
      | noteReference =>
        obtain ⟨n, hn, hfilled⟩ := noteReferenceNode_eq hf
        exact .lift_bind hn (hsome hfilled)
      | link =>
        refine .lift_bind hitems (hchildren.bind fun ns hns => ?_)
        obtain ⟨n, hn, hfilled⟩ := linkNode_eq hf hns
        exact .lift_bind hn (hsome hfilled)
      | image =>
        obtain ⟨n, hn, hfilled⟩ := imageNode_eq hshaped
        exact .lift_bind hn (hsome hfilled)

theorem succeeds_inlineChildren (h : Shaped (.dict fields)) :
    Succeeds (inlineChildren fields) fun ns => ∀ n ∈ ns, Filled n := by
  obtain ⟨items, hitems, hall⟩ := h.childTokens
  exact .lift_bind hitems (succeeds_inlineNodes_of_each fun t ht => succeeds_inlineNode (hall t ht))

/-! ### Tables -/

theorem cellAligns_of_shaped : ∀ {vs : List Value}, (∀ v ∈ vs, Shaped v) →
    ∃ aligns, cellAligns vs = .ok aligns
  | [], _ => ⟨[], rfl⟩
  | v :: vs, h => by
    obtain ⟨hv, hvs⟩ := List.forall_mem_cons.1 h
    obtain ⟨fields, rfl, hf⟩ := hv.eq_dict
    obtain ⟨aligns, haligns⟩ := cellAligns_of_shaped hvs
    refine ⟨(attributes fields).getD "align" :: aligns, ?_⟩
    rw [cellAligns, fieldsOf, Runs.except_ok_bind, attributesOf_eq hf, Runs.except_ok_bind, haligns,
      Runs.except_ok_bind]
    rfl

theorem succeeds_cellNodes : ∀ {vs : List Value}, (∀ v ∈ vs, Shaped v) →
    Succeeds (cellNodes vs) fun ns => ∀ n ∈ ns, Filled n
  | [], _ => succeeds_pure (by simp)
  | v :: vs, h => by
    obtain ⟨hv, hvs⟩ := List.forall_mem_cons.1 h
    obtain ⟨fields, rfl, hf⟩ := hv.eq_dict
    rw [cellNodes]
    refine .lift_bind rfl ?_
    split_ifs
    · refine (succeeds_inlineChildren hv).bind fun ns hns => (succeeds_cellNodes hvs).bind ?_
      intro rest hrest
      exact succeeds_pure (List.forall_mem_cons.2 ⟨filled_of rfl hns, hrest⟩)
    · exact succeeds_cellNodes hvs

theorem succeeds_bodyRows : ∀ {vs : List Value}, (∀ v ∈ vs, Shaped v) →
    Succeeds (bodyRows vs) fun ns => ∀ n ∈ ns, Filled n
  | [], _ => succeeds_pure (by simp)
  | v :: vs, h => by
    obtain ⟨hv, hvs⟩ := List.forall_mem_cons.1 h
    obtain ⟨fields, rfl, hf⟩ := hv.eq_dict
    obtain ⟨items, hitems, hall⟩ := hv.childTokens
    rw [bodyRows]
    refine .lift_bind rfl (.lift_bind hitems ((succeeds_cellNodes hall).bind fun ns hns => ?_))
    refine (succeeds_bodyRows hvs).bind fun rest hrest => ?_
    exact succeeds_pure (List.forall_mem_cons.2 ⟨filled_of rfl hns, hrest⟩)

theorem succeeds_tableRows : ∀ {vs : List Value} (align : List Value), (∀ v ∈ vs, Shaped v) →
    Succeeds (tableRows align vs) fun r => ∀ n ∈ r.2, Filled n
  | [], _, _ => succeeds_pure (by simp)
  | v :: vs, align, h => by
    obtain ⟨hv, hvs⟩ := List.forall_mem_cons.1 h
    obtain ⟨fields, rfl, hf⟩ := hv.eq_dict
    obtain ⟨items, hitems, hall⟩ := hv.childTokens
    rw [tableRows]
    refine .lift_bind rfl ?_
    split_ifs
    · obtain ⟨own, hown⟩ := cellAligns_of_shaped hall
      refine .lift_bind hitems (.lift_bind hown ((succeeds_cellNodes hall).bind fun ns hns => ?_))
      refine (succeeds_tableRows own hvs).bind fun r hr => ?_
      exact succeeds_pure (List.forall_mem_cons.2 ⟨filled_of rfl hns, hr⟩)
    · refine .lift_bind hitems ((succeeds_bodyRows hall).bind fun body hbody => ?_)
      refine (succeeds_tableRows align hvs).bind fun r hr => succeeds_pure fun n hn => ?_
      rcases List.mem_append.1 hn with hn | hn
      · exact hbody n hn
      · exact hr n hn
    · exact succeeds_tableRows align hvs

/-- **A table is converted.** -/
theorem succeeds_tableNode (h : Shaped (.dict fields)) : Succeeds (tableNode fields) Filled := by
  obtain ⟨items, hitems, hall⟩ := h.childTokens
  refine .lift_bind hitems ((succeeds_tableRows [] hall).bind fun r hr => ?_)
  exact succeeds_pure (filled_of rfl hr)

/-! ### Blocks -/

/-- **There is a first word** in a text without the blanks around it, unless it is empty. -/
theorem firstWord_strip {s : String} (h : Text.strip s ≠ "") :
    ∃ w, firstWord (Text.strip s) = .ok w := by
  have htrim := Page.Cut.trim_trim Text.isBlank s.toList
  obtain ⟨c, r, hcr⟩ : ∃ c r, Text.trim Text.isBlank s.toList = c :: r := by
    cases hl : Text.trim Text.isBlank s.toList with
    | nil => exact absurd (by rw [Text.strip, hl]) h
    | cons c r => exact ⟨c, r, rfl⟩
  rw [hcr] at htrim
  have hc : Text.isBlank c = false := by
    simpa using (Page.Cut.trim_eq_self_iff.1 htrim).1
  unfold firstWord Text.words Text.strip
  rw [String.toList_ofList, hcr]
  cases hw : Text.wordsBy Text.isBlank (c :: r) with
  | nil => exact absurd hw (Text.wordsBy_ne_nil hc r)
  | cons w ws => exact ⟨_, rfl⟩

/-- The language of a code block is the first word of its information. -/
theorem languageOf_str (s : String) : languageOf (.str s) = .ok (language (some s)) := by
  unfold languageOf
  by_cases hs : (Value.str s).truthy = true
  · by_cases he : Text.strip s = ""
    · have hwords : Text.words s = [] := by
        rw [← Text.words_strip, he]
        rfl
      simp [hs, textFor, he, language, hwords]
    · obtain ⟨w, hw⟩ := firstWord_strip he
      have hlang : language (some s) = .str w := by
        unfold firstWord at hw
        rw [Text.words_strip] at hw
        unfold language
        split at hw
        · next hwords =>
          cases hw
          simp [hwords]
        · cases hw
      simp [hs, textFor, he, hw, hlang]
  · obtain rfl : s = "" := by simpa [Value.truthy] using hs
    rfl

theorem isTextOrNull_language (info : Option String) : isTextOrNull (language info) = true := by
  unfold language
  split <;> rfl

theorem languageOf_eq (h : isTextOrNull v = true) :
    ∃ lang, languageOf v = .ok lang ∧ isTextOrNull lang = true := by
  cases v with
  | null => exact ⟨.null, rfl, rfl⟩
  | str s => exact ⟨_, languageOf_str s, isTextOrNull_language _⟩
  | _ => cases h

theorem codeNode_eq (h : isFielded fields = true) : ∃ n, codeNode fields = .ok n ∧ Filled n := by
  obtain ⟨-, hraw, -⟩ := isFielded_iff h
  obtain ⟨-, -, -, -, hinfo⟩ := areAttributes_iff.1 (areAttributes_attributes h)
  obtain ⟨raw, hraw⟩ := textField_eq hraw
  obtain ⟨lang, hlang, htext⟩ := languageOf_eq (isTextOrNull_getD hinfo)
  refine ⟨.leaf (.code (.str (dropLastBreak raw)) lang) none, ?_, filled_leaf ?_⟩
  · unfold codeNode
    rw [hraw, hlang]
    rfl
  · simp [leafIsFilled, Value.isText, htext]

/-- **The level of a heading lies between 1 and 6**, whatever is given, and passes the check. -/
theorem headingLevel_cases (v : Value) : branchIsFilled (.heading (headingLevel v)) = true ∧
    (Branch.heading (headingLevel v)).check = .ok () := by
  have hlevel : ∀ {w : Value} {n : Int}, w.whole? = some n → 1 ≤ n ∧ n ≤ 6 →
      branchIsFilled (.heading w) = true ∧ (Branch.heading w).check = .ok () := by
    intro w n hw hn
    refine ⟨by simp [branchIsFilled, hw, hn], ?_⟩
    have hbetween : Mdast.between 1 6 w = .ok true := by
      cases w <;> simp_all [Mdast.between, Value.whole?]
    unfold Mdast.Branch.check
    dsimp only
    rw [hbetween]
    rfl
  unfold headingLevel
  cases hv : v.whole? with
  | none => exact hlevel (n := 1) rfl (by decide)
  | some n =>
    dsimp only
    split_ifs with hn
    · exact hlevel hv (by simpa using hn)
    · exact hlevel (n := 1) rfl (by decide)

theorem succeeds_headingNode (h : Shaped (.dict fields)) :
    Succeeds (headingNode fields) Filled := by
  obtain ⟨hfilled, hcheck⟩ := headingLevel_cases (((attributes fields).get? "level").getD (.int 1))
  refine (succeeds_inlineChildren h).bind fun ns hns => ?_
  refine .lift_bind (a := ()) (by rw [hcheck]; rfl) ?_
  exact succeeds_pure (filled_of hfilled hns)

theorem succeeds_blockNodesEach_of_each : ∀ {vs : List Value},
    (∀ v ∈ vs, Succeeds (blockNodes v) fun ns => ∀ n ∈ ns, Filled n) →
      Succeeds (blockNodesEach vs) fun ns => ∀ n ∈ ns, Filled n
  | [], _ => by
    rw [blockNodesEach]
    exact succeeds_pure (by simp)
  | v :: vs, h => by
    obtain ⟨hv, hvs⟩ := List.forall_mem_cons.1 h
    rw [blockNodesEach]
    refine hv.bind fun ns hns => (succeeds_blockNodesEach_of_each hvs).bind fun rest hrest => ?_
    refine succeeds_pure fun n hn => ?_
    rcases List.mem_append.1 hn with hn | hn
    · exact hns n hn
    · exact hrest n hn

/-- A token whose children are converted as blocks. -/
def Holds (v : Value) : Prop := ∀ fields, v = .dict fields → ∃ items,
  childTokens fields = .ok items ∧ Succeeds (blockNodesEach items.1) fun ns => ∀ n ∈ ns, Filled n

theorem succeeds_itemNodes : ∀ {vs : List Value}, (∀ v ∈ vs, Shaped v ∧ Holds v) →
    Succeeds (itemNodes vs) fun ns => ∀ n ∈ ns, Filled n
  | [], _ => by
    rw [itemNodes]
    exact succeeds_pure (by simp)
  | v :: vs, h => by
    obtain ⟨⟨hv, hholds⟩, hvs⟩ := List.forall_mem_cons.1 h
    obtain ⟨fields, rfl, -⟩ := hv.eq_dict
    obtain ⟨items, hitems, hchildren⟩ := hholds fields rfl
    rw [itemNodes]
    refine .lift_bind hitems (hchildren.bind fun ns hns => ?_)
    refine (succeeds_itemNodes hvs).bind fun rest hrest => ?_
    exact succeeds_pure (List.forall_mem_cons.2 ⟨filled_of rfl hns, hrest⟩)

theorem succeeds_noteNodes : ∀ {vs : List Value}, (∀ v ∈ vs, Shaped v ∧ Holds v) →
    Succeeds (noteNodes vs) fun ns => ∀ n ∈ ns, Filled n
  | [], _ => by
    rw [noteNodes]
    exact succeeds_pure (by simp)
  | v :: vs, h => by
    obtain ⟨⟨hv, hholds⟩, hvs⟩ := List.forall_mem_cons.1 h
    obtain ⟨fields, rfl, hf⟩ := hv.eq_dict
    obtain ⟨-, hkey, -⟩ := areAttributes_iff.1 (areAttributes_attributes hf)
    obtain ⟨key, hkey⟩ := textField_eq hkey
    obtain ⟨items, hitems, hchildren⟩ := hholds fields rfl
    rw [noteNodes]
    split_ifs
    · refine .lift_bind (attributesOf_eq hf) (.lift_bind (a := key) (by rw [hkey]; rfl) ?_)
      refine .lift_bind hitems (hchildren.bind fun ns hns => ?_)
      refine (succeeds_noteNodes hvs).bind fun rest hrest => ?_
      exact succeeds_pure (List.forall_mem_cons.2 ⟨filled_of rfl hns, hrest⟩)
    · exact succeeds_noteNodes hvs

theorem mem_listItems {t : Value} (h : t ∈ (listItems fields).1) :
    ∃ l, fields.get? "children" = some (.list l) ∧ t ∈ l := by
  unfold listItems at h
  split at h
  · next items hitems => exact ⟨items, hitems, h⟩
  · cases h

/-- **A block is converted, and so are the blocks among its children**, by induction on its shape. -/
theorem succeeds_blockNodes_and_holds (h : Shaped v) :
    (Succeeds (blockNodes v) fun ns => ∀ n ∈ ns, Filled n) ∧ Holds v := by
  -- a list and a footnote block convert the children of their children, so these are carried along
  induction h with
  | mk fields hf hall ih =>
    have hshaped : Shaped (.dict fields) := .mk fields hf hall
    obtain ⟨-, hraw, -⟩ := isFielded_iff hf
    obtain ⟨raw, hraw⟩ := textField_eq hraw
    obtain ⟨items, hitems, hmem⟩ := childTokens_eq hf
    have hitem : ∀ t ∈ items.1, Shaped t ∧ Holds t := fun t ht => by
      obtain ⟨l, hl, htl⟩ := hmem t ht
      exact ⟨hall l hl t htl, (ih l hl t htl).2⟩
    have hlist : ∀ t ∈ (listItems fields).1, Shaped t ∧ Holds t := fun t ht => by
      obtain ⟨l, hl, htl⟩ := mem_listItems ht
      exact ⟨hall l hl t htl, (ih l hl t htl).2⟩
    have hchildren : Succeeds (blockNodesEach items.1) fun ns => ∀ n ∈ ns, Filled n :=
      succeeds_blockNodesEach_of_each fun t ht => by
        obtain ⟨l, hl, htl⟩ := hmem t ht
        exact (ih l hl t htl).1
    have hone : ∀ {n : Node}, Filled n → Succeeds (pure [n] : Logged Failure (List Node))
        fun ns => ∀ n ∈ ns, Filled n := fun hn => succeeds_pure (by simpa using hn)
    refine ⟨?_, fun fields' heq => ?_⟩
    · rw [blockNodes]
      cases BlockType.ofValue? (textField fields "type") with
      | none => exact (succeeds_report _ _ _).bind fun _ _ => succeeds_pure (by simp)
      | some type =>
        cases type with
        | heading => exact (succeeds_headingNode hshaped).bind fun n hn => hone hn
        | paragraph =>
          exact (succeeds_inlineChildren hshaped).bind fun ns hns => hone (filled_of rfl hns)
        | code =>
          obtain ⟨n, hn, hfilled⟩ := codeNode_eq hf
          exact .lift_bind hn (hone hfilled)
        | container k =>
          exact .lift_bind hitems (hchildren.bind fun ns hns => hone (filled_of rfl hns))
        | list => exact (succeeds_itemNodes hlist).bind fun ns hns => hone (filled_of rfl hns)
        | table => exact (succeeds_tableNode hshaped).bind fun n hn => hone hn
        | thematicBreak => exact hone (filled_leaf rfl)
        | html =>
          dsimp only
          rw [hraw]
          exact hone (filled_leaf rfl)
        | math =>
          refine .lift_bind (a := raw) (by rw [hraw]; rfl) (hone ?_)
          exact filled_leaf rfl
        | notes => exact .lift_bind hitems (succeeds_noteNodes hitem)
        | blankLine => exact succeeds_pure (by simp)
    · cases heq
      exact ⟨items, hitems, hchildren⟩

/-- **A block is converted.** -/
theorem succeeds_blockNodes (h : Shaped v) :
    Succeeds (blockNodes v) fun ns => ∀ n ∈ ns, Filled n := (succeeds_blockNodes_and_holds h).1

/-! ### The document -/

theorem filled_front {o : MarkdownOptions} {text : String} :
    ∀ n ∈ (o.splitFront text).1, Filled n := by
  intro n hn
  unfold MarkdownOptions.splitFront at hn
  split_ifs at hn
  · dsimp only at hn
    unfold FrontMatter.split at hn
    split at hn
    · obtain rfl := Option.mem_some.1 hn
      exact filled_leaf rfl
    · cases hn
  · cases hn

/-- **The document of tokens**: the nodes of the front matter and of the blocks, which hold texts, and
after them the link definitions as the environment has them. -/
theorem succeeds_document {given : Tokens} {front : Option Node} {ds : List LinkDefinition}
    (hfront : ∀ n ∈ front, Filled n)
    (hshaped : ∀ items, given.tokens = .list items → ∀ t ∈ items, Shaped t)
    (hds : linkDefinitions given.env = .ok ds) :
    Succeeds (given.document front) fun root => ∃ ns, (∀ n ∈ ns, Filled n) ∧
      root = .container .root (ns ++ ds.map LinkDefinition.node) := by
  have hblocks : Succeeds given.blocks fun ns => ∀ n ∈ ns, Filled n := by
    unfold Tokens.blocks
    split
    · next items hitems =>
      exact succeeds_blockNodesEach_of_each fun t ht =>
        succeeds_blockNodes (hshaped items hitems t ht)
    · exact succeeds_pure (by simp)
  refine hblocks.bind fun blocks hfilled => .lift_bind hds ?_
  refine (succeeds_report _ _ _).bind fun _ _ =>
    succeeds_pure ⟨front.toList ++ blocks, fun n hn => ?_, by rw [List.append_assoc]⟩
  rcases List.mem_append.1 hn with hn | hn
  · exact hfront n (Option.mem_toList.1 hn)
  · exact hfilled n hn

theorem textual_definition (d : LinkDefinition) : d.node.Textual := Node.all_leaf.2 rfl

/-- **A text that is cut into tokens of the shape that a tokenizer gives them is converted**, whatever
the options. The document is a root. Its nodes hold texts, and its headings have levels from 1 to 6;
after them come the link definitions of the environment, whose places are texts. With any options
again, the root is rendered; and no grid of a table asks for the greatest of no numbers. -/
theorem read_shaped (tokenizer : Extensions → String → Except String Tokens) (o : MarkdownOptions)
    (text : String) {given : Tokens}
    (hgiven : tokenizer o.extensions (o.splitFront text).2 = .ok given)
    (hshaped : ∀ items, given.tokens = .list items → ∀ t ∈ items, Shaped t)
    (henv : isEnvironment given.env = true) (log : List Record) :
    ∃ ns ds log', linkDefinitions given.env = .ok ds ∧
      read tokenizer o text log =
        (.ok (.container .root (ns ++ ds.map LinkDefinition.node)), log') ∧
      (∀ n ∈ ns, Filled n) ∧ (∀ d ∈ ds, d.url.isText = true) ∧
      (∀ (p : PageOptions) (log : List Record), ∃ page log',
        Page.render p (.container .root (ns ++ ds.map LinkDefinition.node)) log =
          (.ok page, log')) ∧
      ∀ rows, Page.Maxima.drawRows? rows = some (Bulletin.Page.drawRows rows) := by
  obtain ⟨ds, hds, hurl⟩ := linkDefinitions_eq henv
  obtain ⟨root, log', hread, ns, hns, rfl⟩ := succeeds_document filled_front hshaped hds log
  have htextual : ∀ n ∈ ns ++ ds.map LinkDefinition.node, n.Textual := fun n hn => by
    rcases List.mem_append.1 hn with hn | hn
    · exact (hns n hn).textual
    · obtain ⟨d, -, rfl⟩ := List.mem_map.1 hn
      exact textual_definition d
  refine ⟨ns, ds, log', hds, ?_, hns, hurl, fun p log => ?_, Page.Maxima.drawRows?_eq⟩
  · unfold read
    dsimp only
    rw [hgiven]
    exact hread
  · exact ⟨_, _, Page.Whole.render_eq htextual none log⟩

/-- A token of a type with further fields. -/
def token (type : String) (more : Fields) : Value := .dict (("type", .str type) :: more)

/-- A heading of the ninth level, a reference to a link, code, a table with rows of two lengths, and a
footnote. -/
def sample : Tokens where
  tokens := .list [
    token "heading" [("attrs", .dict [("level", .int 9)]),
      ("children", .list [token "text" [("raw", .str "Mods")]])],
    token "paragraph" [("children", .list [
      token "link" [("ref", .str "Nexus"), ("label", .str "Nexus"), ("children", .list [
        token "emphasis" [("children", .list [token "text" [("raw", .str "here")]])]])],
      token "image" [("attrs", .dict [("url", .str "logo.png"), ("title", .null)]),
        ("children", .list [token "softbreak" []])]])],
    token "block_code" [("raw", .str "x = 1\n"), ("attrs", .dict [("info", .str "  ini  ")])],
    token "table" [("children", .list [
      token "table_head" [("children", .list [token "table_cell" [("children", .list [])]])],
      token "table_body" [("children", .list [token "table_row" [("children", .list [])]])]])],
    token "footnotes" [("children", .list [
      token "footnote_item" [("attrs", .dict [("key", .str "A")]), ("children", .list [])]])]]
  env := .dict [("ref_links", .dict [("NEXUS", .dict [("url", .str "nexus.example")])])]

theorem read_shaped_sample : (∀ items, sample.tokens = .list items → ∀ t ∈ items, Shaped t) ∧
    isEnvironment sample.env = true ∧ ∃ ns ds log', linkDefinitions sample.env = .ok ds ∧
      read (fun _ _ => .ok sample) {} "# Mods" [] =
        (.ok (.container .root (ns ++ ds.map LinkDefinition.node)), log') ∧
      (∀ n ∈ ns, Filled n) ∧ (∀ d ∈ ds, d.url.isText = true) ∧
      (∀ (p : PageOptions) (log : List Record), ∃ page log',
        Page.render p (.container .root (ns ++ ds.map LinkDefinition.node)) log =
          (.ok page, log')) ∧
      ∀ rows, Page.Maxima.drawRows? rows = some (Bulletin.Page.drawRows rows) := by
  have hnone : ∀ t ∈ ([] : List Value), Shaped t := nofun
  have hone : ∀ {v : Value}, Shaped v → ∀ t ∈ [v], Shaped t := fun h => by simpa using h
  have htext : ∀ s, Shaped (token "text" [("raw", .str s)]) := fun s => .leaf rfl rfl
  have htwo : ∀ {v w : Value}, Shaped v → Shaped w → ∀ t ∈ [v, w], Shaped t := fun hv hw =>
    List.forall_mem_cons.2 ⟨hv, hone hw⟩
  have hshaped : ∀ items, sample.tokens = .list items → ∀ t ∈ items, Shaped t := by
    rintro items ⟨⟩
    refine List.forall_mem_cons.2 ⟨.branch rfl rfl ?_, List.forall_mem_cons.2 ⟨.branch rfl rfl ?_,
      List.forall_mem_cons.2 ⟨.leaf rfl rfl, htwo (.branch rfl rfl ?_) (.branch rfl rfl ?_)⟩⟩⟩
    · exact hone (htext _)
    · exact htwo (.branch rfl rfl (hone (.branch rfl rfl (hone (htext _)))))
        (.branch rfl rfl (hone (.leaf rfl rfl)))
    · exact htwo (.branch rfl rfl (hone (.branch rfl rfl hnone)))
        (.branch rfl rfl (hone (.branch rfl rfl hnone)))
    · exact hone (.branch rfl rfl hnone)
  exact ⟨hshaped, rfl, read_shaped (fun _ _ => .ok sample) {} "# Mods" rfl hshaped rfl []⟩

end Bulletin.Markdown.Handed
