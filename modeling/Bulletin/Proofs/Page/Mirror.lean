import Bulletin.Proofs.Number.Written
import Bulletin.Proofs.Page.Tags
import Bulletin.Proofs.Page.Words
import Mathlib

/-! # The tags of a page

The tags of a page are the word of its tree, and so they are well nested, whatever the tree is
(`tags_mirror`). Texts could spoil this with brackets of their own, and names of tags with line
feeds, so these are excluded where they are shown (`Unbracketed`); what is captured inside of a table
and what a table has outside of its cells is not shown.

* `Writes`: what one node adds to the text spells its own tags around those of its children;
  `spells_yields`: then the text of a walk spells the word of its trees.
* `writes_table`: the end of preformatted text does not occur in a grid. -/

namespace Bulletin.Proofs.Page.Mirror

open Bulletin.Page
open Bulletin.Mdast (Node Leaf Branch)
open Bulletin.Proofs.Page.Walk Bulletin.Proofs.Page.Queue Bulletin.Proofs.Page.Whole
open Bulletin.Proofs.Page.Deferred Bulletin.Proofs.Page.Preformatted Bulletin.Proofs.Page.Tags
open Bulletin.Proofs.Page.Words
open Bulletin.Proofs.Number.Written (numeric_headingSize)

variable {o : PageOptions} {at_ : Place} {ns : List Node}

/-! ### What one node adds -/

/-- Whether what a node itself adds to the text around it spells its own tags. -/
def Writes (o : PageOptions) (at_ : Place) : Node → Prop
  | .leaf l _ => Spells (leafYield o at_ l).text.toList (leafWord o at_ l)
  | .branch b ns p =>
    if flows b then
      ∀ content w, Spells content.toList w →
        Spells (wrap o content b).toList (opens o b ++ w ++ closes b)
    else Spells (yieldOf o at_ (.branch b ns p)).text.toList (soleWord b)

theorem spells_of_each : ∀ {ns : List Node},
    (∀ n ∈ ns, (∀ m ∈ met n, Writes o at_ m) →
      Spells (yieldOf o at_ n).text.toList (word o at_ n)) →
    (∀ m ∈ metEach ns, Writes o at_ m) → Spells (yields o at_ ns).text.toList (words o at_ ns)
  | [], _, _ => by rw [yields, words]; exact .nil
  | n :: ns, ih, h => by
    rw [List.forall_mem_cons] at ih
    rw [metEach, List.forall_mem_append] at h
    rw [yields, words, append_text]
    exact spells_append (ih.1 h.1) (spells_of_each ih.2 h.2)

theorem spells_yieldOf (n : Node) :
    (∀ m ∈ met n, Writes o at_ m) → Spells (yieldOf o at_ n).text.toList (word o at_ n) := by
  induction n using Node.induct with
  | leaf l p =>
    intro h
    rw [yieldOf, word]
    exact h _ (by rw [met]; exact List.mem_singleton_self _)
  | branch b ns p ih =>
    intro h
    rw [met, List.forall_mem_cons] at h
    rw [word]
    by_cases hf : flows b = true
    · rw [if_pos hf] at h ⊢
      rw [yieldOf_of_flows hf]
      have hb := h.1
      rw [Writes, if_pos hf] at hb
      exact hb _ _ (spells_of_each ih h.2)
    · rw [if_neg hf]
      have hb := h.1
      rwa [Writes, if_neg hf] at hb

/-- **The text of a walk spells the word of its trees**, if every node that is met adds its own
tags. -/
theorem spells_yields (h : ∀ m ∈ metEach ns, Writes o at_ m) :
    Spells (yields o at_ ns).text.toList (words o at_ ns) :=
  spells_of_each (fun n _ => spells_yieldOf n) h

/-! ### Values without brackets -/

/-- A value in whose text there is no bracket. -/
def Bare (v : Value) : Prop := v.display.toList.all Tags.bare = true

/-- A value whose text is on one line. -/
def OneLine (v : Value) : Prop := '\n' ∉ v.display.toList

instance (v : Value) : Decidable (Bare v) := inferInstanceAs (Decidable (_ = true))

instance (v : Value) : Decidable (OneLine v) := inferInstanceAs (Decidable (_ ∉ _))

/-- The values that a node shows in the text around it. -/
def written : Node → List Value
  | .leaf (.literal _ v) _ => [v]
  | .leaf (.code v _) _ => [v]
  | .leaf (.image url _ _) _ => [url]
  | .leaf (.footnoteReference identifier _) _ => [identifier]
  | .branch (.link url _) _ _ => [url]
  | .branch (.linkReference identifier _) _ _ => [identifier]
  | _ => []

/-- The values that a node shows at the end of the page. -/
def writtenLate : Node → List Value
  | .leaf (.definition d) _ => [d.identifier, d.url, d.title.orElse d.identifier]
  | .branch (.footnoteDefinition identifier _) _ _ => [identifier]
  | _ => []

/-- The targets of links. -/
def targets : Node → List Value
  | .branch (.link url _) _ _ => [url]
  | .leaf (.definition d) _ => [d.url]
  | _ => []

/-- Whether a node is an image reference, which is shown in brackets that are no tag. -/
def isImageReference : Node → Bool
  | .leaf (.imageReference ..) _ => true
  | _ => false

/-- **A node that shows no brackets of its own**, nor a link over several lines. -/
structure Plain (n : Node) : Prop where
  noReference : isImageReference n = false
  written : ∀ v ∈ written n, Bare v
  targets : ∀ v ∈ targets n, OneLine v

instance (n : Node) : Decidable (Plain n) :=
  decidable_of_iff (isImageReference n = false ∧ (∀ v ∈ Mirror.written n, Bare v) ∧
      ∀ v ∈ Mirror.targets n, OneLine v)
    ⟨fun h => ⟨h.1, h.2.1, h.2.2⟩, fun h => ⟨h.noReference, h.written, h.targets⟩⟩

theorem isName_append {s t : String} (hs : IsName s) (ht : IsName t) : IsName (s ++ t) := by
  rw [IsName, String.toList_append, List.all_append, Bool.and_eq_true]
  exact ⟨hs, ht⟩

theorem isName_of_bare {v : Value} (h : Bare v) (hl : OneLine v) : IsName v.display :=
  isName_iff.2 ⟨h, hl⟩

/-! ### Leaves -/

theorem spells_bare {v : Value} (h : Bare v) : Spells v.display.toList [] := spells_of_bare h

theorem spells_block {v : Value} (h : Bare v) (after : String)
    (ha : after.toList.all Tags.bare = true) :
    Spells ("\n" ++ preformatted v ++ after).toList ["code", "/code"] := by
  have hbody : ¬ closing <:+: v.display.toList.filter (· ≠ '\n') := by
    intro hi
    have hmem : '[' ∈ v.display.toList := List.mem_of_mem_filter (hi.subset List.mem_cons_self)
    exact absurd (List.all_eq_true.1 h _ hmem) (by decide)
  have hline : Spells "\n".toList [] := spells_of_bare (by decide)
  have hcode : Spells (preformatted v).toList ["code", "/code"] := spells_code hbody
  exact spells_append (spells_append hline hcode) (spells_of_bare ha)

theorem spells_monospace (hfont : IsName o.font.display) {v : Value} (h : Bare v) :
    Spells ("[font=\"" ++ o.font.display ++ "\"]" ++ v.display ++ "[/font]").toList
      ["font=\"" ++ o.font.display ++ "\"", "/font"] := by
  have hname : IsName ("font=\"" ++ o.font.display ++ "\"") :=
    isName_append (isName_append (by decide) hfont) (by decide)
  have hne : "font=\"" ++ o.font.display ++ "\"" ≠ "code" := by
    rw [String.append_assoc]
    exact append_ne (by decide) (by decide)
  have hopen := spells_tag hname hne
  have hclose : Spells ("[" ++ "/font" ++ "]").toList ["/font"] :=
    spells_tag (by decide) (by decide)
  have h := spells_append (spells_append hopen (spells_bare h)) hclose
  have he : "[font=\"" ++ o.font.display ++ "\"]" ++ v.display ++ "[/font]" =
      "[" ++ ("font=\"" ++ o.font.display ++ "\"") ++ "]" ++ v.display ++
        ("[" ++ "/font" ++ "]") := by
    apply String.toList_inj.1
    simp
  rwa [he]

theorem writes_leaf (hfont : IsName o.font.display) {l : Leaf} {p : Option Mdast.Location}
    (h : Plain (.leaf l p)) : Writes o at_ (.leaf l p) := by
  rw [Writes]
  have hbare : ∀ v ∈ written (.leaf l p), Spells v.display.toList [] :=
    fun v hv => spells_bare (h.written v hv)
  cases l with
  | literal k v =>
    have hv : Bare v := h.written v (List.mem_singleton_self v)
    have hmono : ∀ k, k = .inlineCode ∨ k = .inlineMath →
        Spells (leafText o at_ (.literal k v)).toList (fontWord o at_) := by
      obtain ⟨t, r⟩ := at_
      rintro k (rfl | rfl) <;> cases t with
      | true => exact spells_bare hv
      | false =>
        cases r with
        | true => exact spells_bare hv
        | false => exact spells_monospace hfont hv
    cases k with
    | text => exact spells_bare hv
    | html => exact spells_bare hv
    | inlineCode => exact hmono _ (Or.inl rfl)
    | inlineMath => exact hmono _ (Or.inr rfl)
    | math => exact spells_block hv "\n" (by decide)
    | yaml => exact spells_block hv "\n\n" (by decide)
    | toml => exact spells_block hv "\n\n" (by decide)
  | code v lang => exact spells_block (h.written v (List.mem_singleton_self v)) "\n" (by decide)
  | thematicBreak =>
    have hline : Spells ("[" ++ "line" ++ "]").toList ["line"] := spells_tag (by decide) (by decide)
    have hgap : Spells "\n\n".toList [] := spells_of_bare (by decide)
    exact spells_append (spells_append hgap hline) hgap
  | lineBreak =>
    have hgap : Spells "\n\n".toList [] := spells_of_bare (by decide)
    exact hgap
  | image url alt title =>
    have hopen : Spells ("[" ++ "img" ++ "]").toList ["img"] := spells_tag (by decide) (by decide)
    have hclose : Spells ("[" ++ "/img" ++ "]").toList ["/img"] :=
      spells_tag (by decide) (by decide)
    exact spells_append (spells_append hopen (hbare url (List.mem_singleton_self url))) hclose
  | footnoteReference identifier label =>
    have hsee : Spells "(See ^".toList [] := spells_of_bare (by decide)
    have hend : Spells ")".toList [] := spells_of_bare (by decide)
    exact spells_append (spells_append hsee (hbare identifier (List.mem_singleton_self _))) hend
  | definition d => exact .nil
  | imageReference identifier alt label => exact absurd h.noReference (by simp [isImageReference])
  | foreign k v name => exact .nil

/-! ### Branches -/

theorem spells_between {t u content : String} {w : List String} (ht : IsName t) (hu : IsName u)
    (hc : t ≠ "code" ∧ u ≠ "code") (h : Spells content.toList w) :
    Spells ("[" ++ t ++ "]" ++ content ++ ("[" ++ u ++ "]")).toList ([t] ++ w ++ [u]) :=
  spells_append (spells_append (spells_tag ht hc.1) h) (spells_tag hu hc.2)

theorem spells_line {content : String} {w : List String} (h : Spells content.toList w)
    (s t : String) (hs : (s ++ t).toList.all Tags.bare = true) :
    Spells (s ++ content ++ t).toList w := by
  rw [String.toList_append, List.all_append, Bool.and_eq_true] at hs
  simpa using spells_append (spells_append (spells_of_bare hs.1) h) (spells_of_bare hs.2)

theorem writes_of_flows (hsize : IsName o.headingSize.display) {b : Branch}
    {p : Option Mdast.Location} (hf : flows b = true) (h : Plain (.branch b ns p)) :
    Writes o at_ (.branch b ns p) := by
  rw [Writes, if_pos hf]
  intro content w hw
  have hbetween : ∀ t u : String, IsName t → IsName u → t ≠ "code" ∧ u ≠ "code" →
      Spells ("[" ++ t ++ "]" ++ content ++ ("[" ++ u ++ "]")).toList ([t] ++ w ++ [u]) :=
    fun t u ht hu hc => spells_between ht hu hc hw
  cases b with
  | container k =>
    cases k with
    | root => simpa [wrap, opens, closes] using hw
    | paragraph => simpa [wrap, opens, closes] using spells_line hw "\n" "\n" (by decide)
    | blockquote =>
      have hq := hbetween "quote" "/quote" (by decide) (by decide) (by decide)
      simpa [wrap, opens, closes] using spells_line hq "" "\n" (by decide)
    | listItem =>
      have hmark : Spells ("[" ++ "*" ++ "]").toList ["*"] := spells_tag (by decide) (by decide)
      have hbody : Spells (if Text.endsWith content.toList ['\n'] then content
          else content ++ "\n").toList w := by
        split_ifs
        · exact hw
        · simpa using spells_line hw "" "\n" (by decide)
      simpa [wrap, opens, closes] using spells_append hmark hbody
    | emphasis =>
      simpa [wrap, opens, closes] using hbetween "i" "/i" (by decide) (by decide) (by decide)
    | strong =>
      have hb := hbetween "b" "/b" (by decide) (by decide) (by decide)
      simpa [wrap, opens, closes] using spells_line hb "\n" "\n" (by decide)
    | delete =>
      simpa [wrap, opens, closes] using hbetween "s" "/s" (by decide) (by decide) (by decide)
    | tableRow => exact Bool.noConfusion hf
    | tableCell => exact Bool.noConfusion hf
  | heading level =>
    have hname : IsName ("size=" ++ o.headingSize.display) := isName_append (by decide) hsize
    have hs := hbetween ("size=" ++ o.headingSize.display) "/size" hname (by decide)
      ⟨append_ne (by decide) (by decide), by decide⟩
    simpa [wrap, opens, closes] using spells_line hs "\n" "\n\n" (by decide)
  | list ordered start =>
    have hopen : Spells (if ordered.truthy then "[list=1]" else "[list]").toList
        [if ordered.truthy then "list=1" else "list"] := by
      split_ifs
      · exact spells_tag (t := "list=1") (by decide) (by decide)
      · exact spells_tag (t := "list") (by decide) (by decide)
    have hclose : Spells ("[" ++ "/list" ++ "]").toList ["/list"] :=
      spells_tag (by decide) (by decide)
    have hl := spells_append (spells_append (spells_line hopen "\n" "\n" (by decide)) hw) hclose
    simpa [wrap, opens, closes] using hl
  | link url title =>
    have hurl : IsName url.display := isName_of_bare (h.written url (List.mem_singleton_self url))
      (h.targets url (List.mem_singleton_self url))
    have hl := hbetween ("url=" ++ url.display) "/url" (isName_append (by decide) hurl) (by decide)
      ⟨append_ne (by decide) (by decide), by decide⟩
    simpa [wrap, opens, closes] using hl
  | linkReference identifier label =>
    have hid : Spells identifier.display.toList [] :=
      spells_bare (h.written identifier (List.mem_singleton_self identifier))
    have hsee := spells_line hid "(See " "; " (by decide)
    simpa [wrap, opens, closes] using spells_append hsee (spells_line hw "" ")" (by decide))
  | table align => exact Bool.noConfusion hf
  | footnoteDefinition identifier label => exact Bool.noConfusion hf

/-! ### Tables -/

/-- Whether a node is a table. -/
def isTable : Node → Bool
  | .branch (.table _) _ _ => true
  | _ => false

theorem eq_of_isTable {n : Node} (h : isTable n = true) :
    ∃ align ns p, n = .branch (.table align) ns p := by
  cases n with
  | leaf l p => cases h
  | branch b ns p => cases b <;> first | exact ⟨_, ns, p, rfl⟩ | cases h

/-- **Rows stand only in tables, and cells only in rows.** -/
def Placed (n : Node) : Prop :=
  ∀ m ∈ n.children, (isRow m = true → isTable n = true) ∧ (isCell m = true → isRow n = true)

instance : DecidablePred Placed := fun n => by unfold Placed; infer_instance

theorem Placed.isRow_eq_false {n m : Node} (h : Placed n) (hm : m ∈ n.children)
    (ht : isTable n = false) : isRow m = false :=
  Bool.eq_false_iff.2 fun hr => by rw [(h m hm).1 hr] at ht; cases ht

theorem Placed.isCell_eq_false {n m : Node} (h : Placed n) (hm : m ∈ n.children)
    (hr : isRow n = false) : isCell m = false :=
  Bool.eq_false_iff.2 fun hc => by rw [(h m hm).2 hc] at hr; cases hr

/-- The nodes that stand in the cells of a table. -/
def cellNodes : Node → List Node
  | .branch (.table _) rows _ => (rows.filter isRow).flatMap fun row =>
      (row.children.filter isCell).flatMap fun cell => metEach cell.children
  | _ => []

theorem met_of_placed (n : Node) : n.All Placed → isRow n = false → isCell n = false →
    ∀ m ∈ met n, isRow m = false ∧ isCell m = false := by
  induction n using Node.induct with
  | leaf l p =>
    intro _ hr hc m hm
    rw [met, List.mem_singleton] at hm
    exact hm ▸ ⟨hr, hc⟩
  | branch b ns p ih =>
    intro hp hr hc m hm
    rw [Node.all_branch] at hp
    rw [met, List.mem_cons] at hm
    rcases hm with rfl | hm
    · exact ⟨hr, hc⟩
    · split_ifs at hm with hf
      · obtain ⟨n, hn, hm⟩ := mem_metEach.1 hm
        have htable : isTable (.branch b ns p) = false := by
          cases b with
          | table _ => exact Bool.noConfusion hf
          | _ => rfl
        exact ih n hn (hp.2 n hn) (hp.1.isRow_eq_false hn htable) (hp.1.isCell_eq_false hn hr) m hm
      · cases hm

section Rows
variable {cs : List Node} (hp : ∀ n ∈ cs, n.All Placed)
include hp

theorem mem_rows (hc : ∀ n ∈ cs, isCell n = false) {row : List String}
    (h : row ∈ (yields o { table := true } cs).rows) :
    ∃ r ∈ cs, isRow r = true ∧ row = (yields o { row := true } r.children).cells := by
  induction cs with
  | nil => rw [yields] at h; cases h
  | cons n cs ih =>
    rw [List.forall_mem_cons] at hp hc
    rw [yields, append_rows, List.mem_append] at h
    rcases h with h | h
    · cases hr : isRow n with
      | false =>
        have hmet := met_of_placed n hp.1 hr hc.1
        rw [(gathered n _).1 hmet] at h
        cases h
      | true =>
        obtain ⟨ks, p, rfl⟩ := eq_of_isRow hr
        rw [yieldOf, if_pos rfl] at h
        exact ⟨_, List.mem_cons_self, rfl, List.mem_singleton.1 h⟩
    · obtain ⟨r, hr, h⟩ := ih hp.2 hc.2 h
      exact ⟨r, List.mem_cons_of_mem n hr, h⟩

theorem mem_cells (hr : ∀ n ∈ cs, isRow n = false) {text : String}
    (h : text ∈ (yields o { row := true } cs).cells) :
    ∃ c ∈ cs, isCell c = true ∧ text = (yields o { row := true } c.children).text := by
  induction cs with
  | nil => rw [yields] at h; cases h
  | cons n cs ih =>
    rw [List.forall_mem_cons] at hp hr
    rw [yields, append_cells, List.mem_append] at h
    rcases h with h | h
    · cases hc : isCell n with
      | false =>
        have hmet := met_of_placed n hp.1 hr.1 hc
        rw [(gathered n _).2 fun m hm => (hmet m hm).2] at h
        cases h
      | true =>
        obtain ⟨ks, p, rfl⟩ := eq_of_isCell hc
        have hks := Node.all_branch.1 hp.1
        have hnil : (yields o { row := true } ks).cells = [] := by
          refine cells_eq_nil fun m hm => ?_
          obtain ⟨k, hk, hm⟩ := mem_metEach.1 hm
          exact (met_of_placed k (hks.2 k hk) (hks.1.isRow_eq_false hk rfl)
            (hks.1.isCell_eq_false hk rfl) m hm).2
        rw [yieldOf, if_pos rfl] at h
        simp only [hnil, List.nil_append, List.mem_singleton] at h
        exact ⟨_, List.mem_cons_self, rfl, h⟩
    · obtain ⟨c, hc, h⟩ := ih hp.2 hr.2 h
      exact ⟨c, List.mem_cons_of_mem n hc, h⟩

end Rows

theorem writes_of_plain (hfont : IsName o.font.display) (hsize : IsName o.headingSize.display)
    {m : Node} (h : Plain m) (ht : isTable m = false) : Writes o at_ m := by
  cases m with
  | leaf l p => exact writes_leaf hfont h
  | branch b ns p =>
    by_cases hf : flows b = true
    · exact writes_of_flows hsize hf h
    · rw [Writes, if_neg hf, yieldOf.eq_def]
      cases b with
      | container k =>
        cases k with
        | tableRow => dsimp only; split_ifs <;> exact .nil
        | tableCell => dsimp only; split_ifs <;> exact .nil
        | _ => exact absurd rfl hf
      | table align => cases ht
      | footnoteDefinition identifier label => exact .nil
      | _ => exact absurd rfl hf

/-- The end of preformatted text does not occur in the text of a cell without blocks. -/
theorem not_infix_cell (hfont : IsName o.font.display) (hsize : IsName o.headingSize.display)
    {ks : List Node} (h : ∀ k ∈ metEach ks, isBlock k = false ∧ Plain k) :
    ¬ closing <:+: (yields o at_ ks).text.toList := by
  have hspells : Spells (yields o at_ ks).text.toList (words o at_ ks) := by
    refine spells_yields fun k hk => writes_of_plain hfont hsize (h k hk).2 ?_
    have hb := (h k hk).1
    cases k with
    | leaf l p => rfl
    | branch b ns p => cases b <;> first | rfl | cases hb
  have htags : ∀ t ∈ words o at_ ks, t ≠ "code" ∧ t ≠ "/code" := by
    intro t ht
    obtain ⟨k, hk, ht⟩ := List.mem_flatMap.1 ((perm_words ks).mem_iff.1 ht)
    exact ne_code_of_ownTags (h k hk).1 t ht
  have hn := not_infix_of_spells hspells (t := "/code") (by decide)
    (fun hm => (htags _ hm).2 rfl) fun hm => (htags _ hm).1 rfl
  rwa [show '[' :: ("/code".toList ++ [']']) = closing by decide] at hn

/-- **The end of preformatted text does not occur in a grid**, if there are neither blocks nor
brackets in its cells. -/
theorem writes_table (hfont : IsName o.font.display) (hsize : IsName o.headingSize.display)
    {align : Value} {cs : List Node} {p : Option Mdast.Location}
    (hp : (Node.branch (.table align) cs p).All Placed)
    (h : ∀ k ∈ cellNodes (.branch (.table align) cs p), isBlock k = false ∧ Plain k) :
    Writes o at_ (.branch (.table align) cs p) := by
  rw [Node.all_branch] at hp
  have hcells : ∀ n ∈ cs, isCell n = false := fun n hn => hp.1.isCell_eq_false hn rfl
  have hframe : Grid.Frameless closing := ⟨by decide, by simp [Grid.frame]⟩
  rw [Writes, if_neg (show ¬ flows (.table align) = true from Bool.false_ne_true), yieldOf]
  set rows := (yields o { table := true } cs).rows with hrows
  have hbody : ¬ closing <:+: (drawRows rows).toList.filter (· ≠ '\n') := by
    intro hi
    rw [drawRows, String.toList_ofList] at hi
    obtain ⟨row, hrow, cell, hcell, hi⟩ := hframe.infix_draw hi
    obtain ⟨texts, htexts, rfl⟩ := List.mem_map.1 hrow
    obtain ⟨text, htext, rfl⟩ := List.mem_map.1 hcell
    obtain ⟨r, hr, hrr, rfl⟩ := mem_rows hp.2 hcells htexts
    obtain ⟨ks, q, rfl⟩ := eq_of_isRow hrr
    have hks := Node.all_branch.1 (hp.2 _ hr)
    have hrow : ∀ n ∈ ks, isRow n = false := fun n hn => hks.1.isRow_eq_false hn rfl
    obtain ⟨c, hc, hcc, rfl⟩ := mem_cells hks.2 hrow htext
    refine not_infix_cell hfont hsize (fun k hk => h k ?_) hi
    exact List.mem_flatMap.2 ⟨_, List.mem_filter.2 ⟨hr, hrr⟩,
      List.mem_flatMap.2 ⟨c, List.mem_filter.2 ⟨hc, hcc⟩, hk⟩⟩
  have hline : Spells "\n".toList [] := spells_of_bare (by decide)
  have hgrid := spells_append (spells_code hbody) hline
  have he : "[code]" ++ drawRows rows ++ "[/code]\n" =
      "[code]" ++ drawRows rows ++ "[/code]" ++ "\n" := by
    apply String.toList_inj.1
    simp
  rw [he]
  exact hgrid

/-! ### Pages -/

/-- **A page that shows no brackets of its own**: rows and cells have their place, there are no
image references, no blocks in cells and no brackets in what is shown, and targets of links and the
font are on one line. -/
structure Unbracketed (o : PageOptions) (root : Node) : Prop where
  placed : root.All Placed
  font : IsName o.font.display
  page : ∀ m ∈ outsideEach root.children, Plain m ∧ ∀ v ∈ writtenLate m, Bare v
  cells : ∀ m ∈ outsideEach root.children, ∀ k ∈ cellNodes m, isBlock k = false ∧ Plain k

section Page
variable {loc : Option Mdast.Location} (hsize : IsName o.headingSize.display)
  (h : Unbracketed o (.branch (.container .root) ns loc))
include hsize h

theorem Unbracketed.writes {m : Node} (hm : m ∈ metEach (walked ns)) : Writes o {} m := by
  have hout : m ∈ outsideEach ns := (perm_outside ns).mem_iff.1 hm
  cases ht : isTable m with
  | false => exact writes_of_plain h.font hsize (h.page m hout).1 ht
  | true =>
    obtain ⟨align, cs, p, rfl⟩ := eq_of_isTable ht
    obtain ⟨n, hn, hm⟩ := mem_outsideEach.1 hout
    have hp : (Node.branch (.table align) cs p).All Placed :=
      all_of_mem_outside n hm ((Node.all_branch.1 h.placed).2 n hn)
    exact writes_table h.font hsize hp (h.cells _ hout)

theorem Unbracketed.spells_body (ht : TextualEach ns) :
    Spells (pageText o ns).toList (words o {} ns) := by
  rw [pageText_eq ht.fits]
  refine spells_yields fun m hm => h.writes hsize ?_
  rw [walked, metEach_append]
  exact List.mem_append_left _ hm

theorem Unbracketed.spells_note (ht : TextualEach ns) {f : Footnote} (hf : f ∈ notes ns) :
    Spells (noteLine o f).toList (words o {} f.children) := by
  have htext : TextualEach f.children := textual_breadthFirst _ (textual_footnotesMet ht) f hf
  have hbody : Spells (pageText o f.children).toList (words o {} f.children) := by
    rw [pageText_eq htext.fits]
    refine spells_yields fun m hm => h.writes hsize ?_
    rw [walked, metEach_append, metEach_flatMap]
    exact List.mem_append_right _ (List.mem_flatMap.2 ⟨f, hf, hm⟩)
  obtain ⟨m, hm, hmf⟩ := List.mem_filterMap.1 ((perm_notes ns).mem_iff.1 hf)
  obtain ⟨p, rfl⟩ := eq_of_footnote? hmf
  have hid : Bare f.identifier := (h.page _ hm).2 _ (List.mem_singleton_self _)
  have hline := spells_line (spells_bare hid) "\n^" ": " (by decide)
  rw [noteLine]
  exact spells_append hline hbody.strip

omit hsize in
theorem Unbracketed.spells_definition {d : Mdast.Definition} (hd : d ∈ definitions ns) :
    Spells (definitionEntry d).toList (definitionWord d) := by
  obtain ⟨m, hm, hmd⟩ := List.mem_filterMap.1 ((perm_definitions ns).mem_iff.1 hd)
  obtain ⟨p, rfl⟩ := eq_of_definition? hmd
  have hpage := h.page _ hm
  simp only [writtenLate, List.forall_mem_cons] at hpage
  obtain ⟨hplain, hid, hurl, htitle, -⟩ := hpage
  have hline : OneLine d.url := hplain.targets d.url (List.mem_singleton_self _)
  have hname : IsName ("url=" ++ d.url.display) :=
    isName_append (by decide) (isName_of_bare hurl hline)
  have hlink := spells_between hname (by decide) ⟨append_ne (by decide) (by decide), by decide⟩
    (spells_bare htitle) (u := "/url")
  have hall := spells_append (spells_line (spells_bare hid) "\n^" ": " (by decide)) hlink
  have he : definitionEntry d = "\n^" ++ d.identifier.display ++ ": " ++
      ("[" ++ ("url=" ++ d.url.display) ++ "]" ++ (d.title.orElse d.identifier).display ++
        ("[" ++ "/url" ++ "]")) := by
    rw [← definitionLine_eq]
    apply String.toList_inj.1
    simp [definitionLine]
  rw [he]
  exact hall

theorem Unbracketed.spells_rawPage (ht : TextualEach ns) :
    Spells (rawPage o ns).toList (pageWord o ns) := by
  have hdefinitions := spells_intercalate fun d hd => h.spells_definition hd
  have hnotes := spells_intercalate fun f hf => h.spells_note hsize ht hf
  exact spells_append (spells_append (h.spells_body hsize ht) hdefinitions) hnotes

end Page

theorem isName_headingSize (h : o.check = .ok ()) : IsName o.headingSize.display := by
  refine List.all_eq_true.2 fun c hc => ?_
  have hn := numeric_headingSize h c hc
  have hne : c ≠ '[' ∧ c ≠ ']' ∧ c ≠ '\n' := by
    refine ⟨?_, ?_, ?_⟩ <;> rintro rfl <;> exact absurd hn (by decide)
  simp [Tags.bare, hne]

/-- **The tags of a page mirror its tree**: they are those of its body, a pair for each link
definition that is written and those of the footnotes, well nested, with as many markers as list
items stand outside of tables. -/
theorem tags_mirror {loc : Option Mdast.Location} (hcheck : o.check = .ok ())
    (ht : (Node.branch (.container .root) ns loc).Textual)
    (h : Unbracketed o (.branch (.container .root) ns loc)) (log : List Record) :
    ∃ page after, render o (.branch (.container .root) ns loc) log = (.ok page, after) ∧
      tags page.toList = pageWord o ns ∧ Nested (tags page.toList) ∧
      (tags page.toList).count "*" = (outsideEach ns).countP isItem := by
  have htext := textualEach_of_root ht
  have hspells := (h.spells_rawPage (isName_headingSize hcheck) htext).tidy
  have htags : tags (tidy (rawPage o ns)).toList = pageWord o ns := tags_of_spells hspells
  refine ⟨_, _, render_eq htext loc log, htags, ?_, ?_⟩
  · rw [htags]
    exact nested_pageWord o ns
  · rw [htags]
    exact count_pageWord o ns

/-- A list, a table with tags in a cell, a quote in a footnote, and a link definition. -/
def marked : List Node :=
  [.of (.list (.bool true) .null) [.container .listItem [.container .strong [.text "a"]],
      .container .listItem []],
    .of (.table (.list [])) [.container .tableRow [.container .tableCell
      [.container .emphasis [.text "b"], .literal .inlineCode (.str "c")]]],
    note "n" [.container .blockquote [.text "d"]], definition "e"]

theorem tags_mirror_marked : ({} : PageOptions).check = .ok () ∧
    (Node.container .root marked).Textual ∧ Unbracketed {} (.container .root marked) ∧
    ∃ page after, render {} (.container .root marked) [] = (.ok page, after) ∧
      tags page.toList = ["list=1", "*", "b", "/b", "*", "/list", "code", "/code", "url=u", "/url",
        "quote", "/quote"] ∧
      Nested (tags page.toList) ∧ (tags page.toList).count "*" = 2 := by
  have hc : ({} : PageOptions).check = .ok () := by cbv
  have ht : (Node.container .root marked).Textual := by decide
  have hu : Unbracketed {} (.container .root marked) :=
    ⟨by decide, by decide, by decide, by decide⟩
  obtain ⟨page, after, hr, hw, hn, hi⟩ := tags_mirror hc ht hu []
  refine ⟨hc, ht, hu, page, after, hr, hw.trans (by cbv), hn, hi.trans (by decide)⟩

end Bulletin.Proofs.Page.Mirror
