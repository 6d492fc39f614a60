import Bulletin.Proofs.Page.Preformatted
import Mathlib

/-! # Tag words

The tags of a tree are read off it without its texts: a branch puts its tags around those of its
children, a leaf has its own, a table is preformatted text and nothing else, and what is captured
has no tags where it stands (`word`). A page has the tags of its body, then a pair of them for each
link definition and then those of its footnotes (`pageWord`).

* `perm_words`: the tags of a word are those of the nodes that are met.
* `nested_pageWord`: the word of every page is well nested.
* `count_pageWord`: it has as many markers as there are list items outside of tables. -/

namespace Bulletin.Proofs.Page.Words

open Bulletin.Page
open Bulletin.Mdast (Node Leaf Branch)
open Bulletin.Proofs.Page.Walk Bulletin.Proofs.Page.Queue Bulletin.Proofs.Page.Whole
open Bulletin.Proofs.Page.Deferred Bulletin.Proofs.Page.Preformatted
open scoped List

variable {o : PageOptions} {at_ : Place} {ns : List Node}

/-! ### Words of trees -/

/-- The tags in front of the children of a branch. -/
def opens (o : PageOptions) : Branch → List String
  | .container .blockquote => ["quote"]
  | .container .listItem => ["*"]
  | .container .emphasis => ["i"]
  | .container .strong => ["b"]
  | .container .delete => ["s"]
  | .heading _ => ["size=" ++ o.headingSize.display]
  | .list ordered _ => [if ordered.truthy then "list=1" else "list"]
  | .link url _ => ["url=" ++ url.display]
  | _ => []

/-- The tags after the children of a branch. -/
def closes : Branch → List String
  | .container .blockquote => ["/quote"]
  | .container .emphasis => ["/i"]
  | .container .strong => ["/b"]
  | .container .delete => ["/s"]
  | .heading _ => ["/size"]
  | .list .. => ["/list"]
  | .link .. => ["/url"]
  | _ => []

/-- The tags of code inside a line; inside a table there are none. -/
def fontWord (o : PageOptions) (at_ : Place) : List String :=
  if at_.table || at_.row then [] else ["font=\"" ++ o.font.display ++ "\"", "/font"]

/-- The tags of a leaf at a place. -/
def leafWord (o : PageOptions) (at_ : Place) : Leaf → List String
  | .literal .inlineCode _ => fontWord o at_
  | .literal .inlineMath _ => fontWord o at_
  | .literal .math _ => ["code", "/code"]
  | .literal .yaml _ => ["code", "/code"]
  | .literal .toml _ => ["code", "/code"]
  | .code .. => ["code", "/code"]
  | .thematicBreak => ["line"]
  | .image .. => ["img", "/img"]
  | _ => []

/-- The tags of a branch that has none of its children's. -/
def soleWord : Branch → List String
  | .table _ => ["code", "/code"]
  | _ => []

mutual

/-- **The tag word of a tree** at a place. -/
def word (o : PageOptions) (at_ : Place) : Node → List String
  | .leaf l _ => leafWord o at_ l
  | .branch b ns _ => if flows b then opens o b ++ words o at_ ns ++ closes b else soleWord b

/-- The tag word of siblings at a place. -/
def words (o : PageOptions) (at_ : Place) : List Node → List String
  | [] => []
  | n :: ns => word o at_ n ++ words o at_ ns

end

/-- The tags of the line of a link definition. -/
def definitionWord (d : Mdast.Definition) : List String := ["url=" ++ d.url.display, "/url"]

/-- **The tag word of a page**: that of its body, a pair of tags for each link definition that is
written, and the words of the footnotes. -/
def pageWord (o : PageOptions) (ns : List Node) : List String :=
  words o {} ns ++ (definitions ns).flatMap definitionWord ++
    (notes ns).flatMap fun f => words o {} f.children

theorem words_append : ∀ ms ns : List Node,
    words o at_ (ms ++ ns) = words o at_ ms ++ words o at_ ns
  | [], _ => rfl
  | m :: ms, ns => by rw [List.cons_append, words, words, words_append ms ns, List.append_assoc]

theorem words_flatMap {α : Type} (f : α → List Node) :
    ∀ l : List α, words o at_ (l.flatMap f) = l.flatMap fun a => words o at_ (f a)
  | [] => rfl
  | a :: l => by rw [List.flatMap_cons, words_append, words_flatMap f l, List.flatMap_cons]

/-! ### The tags of a word -/

/-- The tags that a node adds to a word itself. -/
def ownTags (o : PageOptions) (at_ : Place) : Node → List String
  | .leaf l _ => leafWord o at_ l
  | .branch b _ _ => if flows b then opens o b ++ closes b else soleWord b

theorem perm_of_word : ∀ {ns : List Node},
    (∀ n ∈ ns, word o at_ n ~ (met n).flatMap (ownTags o at_)) →
      words o at_ ns ~ (metEach ns).flatMap (ownTags o at_)
  | [], _ => List.Perm.refl _
  | n :: ns, h => by
    rw [List.forall_mem_cons] at h
    rw [words, metEach, List.flatMap_append]
    exact h.1.append (perm_of_word h.2)

theorem perm_word (n : Node) : word o at_ n ~ (met n).flatMap (ownTags o at_) := by
  induction n using Node.induct with
  | leaf l p => simp [word, met, ownTags]
  | branch b ns p ih =>
    rw [word, met, List.flatMap_cons, ownTags]
    by_cases hf : flows b = true
    · rw [if_pos hf, if_pos hf, if_pos hf]
      calc opens o b ++ words o at_ ns ++ closes b
        _ = opens o b ++ (words o at_ ns ++ closes b) := List.append_assoc ..
        _ ~ opens o b ++ (closes b ++ words o at_ ns) := List.perm_append_comm.append_left _
        _ = opens o b ++ closes b ++ words o at_ ns := (List.append_assoc ..).symm
        _ ~ _ := (perm_of_word ih).append_left _
    · rw [if_neg hf, if_neg hf, if_neg hf]
      simp

/-- **The tags of a word** are those of the nodes that are met. -/
theorem perm_words (ns : List Node) : words o at_ ns ~ (metEach ns).flatMap (ownTags o at_) :=
  perm_of_word fun n _ => perm_word n

/-- Whether a node is shown as preformatted text. -/
def isBlock : Node → Bool
  | .branch (.table _) _ _ => true
  | n => (codeValue? n).isSome

theorem append_ne {s t u : String} (hs : s.toList ≠ []) (h : s.toList.head? ≠ u.toList.head?) :
    s ++ t ≠ u := by
  rintro rfl
  rw [String.toList_append, List.head?_append_of_ne_nil _ hs] at h
  exact h rfl

theorem ne_code_of_ownTags {m : Node} (hb : isBlock m = false) :
    ∀ t ∈ ownTags o at_ m, t ≠ "code" ∧ t ≠ "/code" := by
  have happend : ∀ s t : String,
      s.toList ≠ [] ∧ s.toList.head? ≠ some 'c' ∧ s.toList.head? ≠ some '/' →
        s ++ t ≠ "code" ∧ s ++ t ≠ "/code" :=
    fun s t h => ⟨append_ne h.1 h.2.1, append_ne h.1 h.2.2⟩
  have hfont : ∀ t ∈ fontWord o at_, t ≠ "code" ∧ t ≠ "/code" := by
    unfold fontWord
    split_ifs
    · simp
    · rw [String.append_assoc]
      simpa using happend "font=\"" (o.font.display ++ "\"") (by decide)
  cases m with
  | leaf l p =>
    rw [ownTags]
    cases l with
    | literal k v =>
      cases k with
      | inlineCode => exact hfont
      | inlineMath => exact hfont
      | math => exact absurd hb (by simp [isBlock, codeValue?])
      | yaml => exact absurd hb (by simp [isBlock, codeValue?])
      | toml => exact absurd hb (by simp [isBlock, codeValue?])
      | _ => simp [leafWord]
    | code v lang => exact absurd hb (by simp [isBlock, codeValue?])
    | _ => simp [leafWord]
  | branch b ns p =>
    rw [ownTags]
    cases b with
    | table align => exact absurd hb (by simp [isBlock])
    | container k => cases k <;> simp [flows, opens, closes, soleWord]
    | heading level =>
      simpa [flows, opens, closes] using happend "size=" o.headingSize.display (by decide)
    | list ordered start =>
      have hf : flows (.list ordered start) = true := rfl
      rw [if_pos hf, opens, closes]
      split_ifs <;> simp
    | link url title => simpa [flows, opens, closes] using happend "url=" url.display (by decide)
    | _ => simp [flows, opens, closes, soleWord]

/-! ### Nesting -/

/-- The kind of a tag: its name up to an equals sign. -/
def kind (t : String) : String := .ofList (t.toList.takeWhile (· ≠ '='))

/-- **Well nested tags**: markers and lines stand alone, and every other tag is closed by the
closing tag of its kind, with well nested tags in between. -/
inductive Nested : List String → Prop
  | nil : Nested []
  | alone {t : String} {w : List String} : t = "*" ∨ t = "line" → Nested w → Nested (t :: w)
  | pair {t : String} {v w : List String} :
    t.toList.head? ≠ some '/' → Nested v → Nested w → Nested (t :: (v ++ ("/" ++ kind t) :: w))

theorem Nested.append {v w : List String} (hv : Nested v) (hw : Nested w) : Nested (v ++ w) := by
  induction hv with
  | nil => exact hw
  | alone ht _ ih => exact ih.alone ht
  | pair ht hv _ _ ih =>
    rw [List.cons_append, List.append_assoc]
    exact .pair ht hv ih

theorem Nested.between {t u : String} {w : List String} (ht : t.toList.head? ≠ some '/')
    (hu : u = "/" ++ kind t) (hw : Nested w) : Nested ([t] ++ w ++ [u]) := by
  rw [hu]
  exact .pair ht hw .nil

theorem kind_append {s : String} (hs : '=' ∉ s.toList) (t : String) : kind (s ++ "=" ++ t) = s := by
  have htake : (s.toList ++ '=' :: t.toList).takeWhile (· ≠ '=') = s.toList := by
    rw [List.takeWhile_append_of_pos fun c hc => ?_]
    · simp
    · have hne : c ≠ '=' := by rintro rfl; exact hs hc
      simpa using hne
  rw [kind, String.toList_append, String.toList_append, List.append_assoc]
  exact (congrArg String.ofList htake).trans String.ofList_toList

theorem Nested.between_valued {s t : String} {w : List String}
    (hs : '=' ∉ s.toList ∧ (s ++ "=").toList.head? ≠ some '/') (hw : Nested w) :
    Nested ([s ++ "=" ++ t] ++ w ++ ["/" ++ s]) := by
  refine hw.between ?_ (by rw [kind_append hs.1])
  have hne : (s ++ "=").toList ≠ [] := by simp
  rw [String.toList_append, List.head?_append_of_ne_nil _ hne]
  exact hs.2

theorem nested_leafWord (l : Leaf) : Nested (leafWord o at_ l) := by
  have hcode : Nested ["code", "/code"] := Nested.nil.between (by decide) (by decide)
  have hfont : Nested (fontWord o at_) := by
    unfold fontWord
    split_ifs
    · exact .nil
    · have he : "font=\"" ++ o.font.display ++ "\"" =
          "font" ++ "=" ++ ("\"" ++ o.font.display ++ "\"") := by
        apply String.toList_inj.1
        simp
      rw [he]
      exact Nested.nil.between_valued (s := "font") (by decide)
  cases l with
  | literal k v => cases k <;> first | exact hfont | exact hcode | exact .nil
  | code v lang => exact hcode
  | thematicBreak => exact .alone (Or.inr rfl) .nil
  | image url alt title => exact Nested.nil.between (t := "img") (by decide) (by decide)
  | _ => exact .nil

theorem nested_of_each : ∀ {ns : List Node}, (∀ n ∈ ns, Nested (word o at_ n)) →
    Nested (words o at_ ns)
  | [], _ => by rw [words]; exact .nil
  | n :: ns, h => by
    rw [List.forall_mem_cons] at h
    rw [words]
    exact h.1.append (nested_of_each h.2)

theorem nested_url {w : List String} (hw : Nested w) (url : String) :
    Nested (["url=" ++ url] ++ w ++ ["/url"]) := by
  rw [show "url=" = "url" ++ "=" by decide, show "/url" = "/" ++ "url" by decide]
  exact hw.between_valued (by decide)

theorem nested_word (n : Node) : Nested (word o at_ n) := by
  induction n using Node.induct with
  | leaf l p => rw [word]; exact nested_leafWord l
  | branch b ns p ih =>
    have hw := nested_of_each ih
    have hplain : Nested ([] ++ words o at_ ns ++ []) := by simpa using hw
    rw [word]
    by_cases hf : flows b = true
    · rw [if_pos hf]
      cases b with
      | container k =>
        cases k with
        | blockquote => exact hw.between (by decide) (by decide)
        | emphasis => exact hw.between (by decide) (by decide)
        | strong => exact hw.between (by decide) (by decide)
        | delete => exact hw.between (by decide) (by decide)
        | listItem => simpa [opens, closes] using hw.alone (Or.inl rfl)
        | _ => exact hplain
      | heading level =>
        rw [opens, closes, show "size=" = "size" ++ "=" by decide,
          show "/size" = "/" ++ "size" by decide]
        exact hw.between_valued (by decide)
      | list ordered start =>
        rw [opens, closes]
        split_ifs
        · exact hw.between (by decide) (by decide)
        · exact hw.between (by decide) (by decide)
      | link url title => exact nested_url hw url.display
      | _ => exact hplain
    · rw [if_neg hf]
      cases b with
      | table align => exact Nested.nil.between (t := "code") (by decide) (by decide)
      | _ => exact .nil

theorem nested_flatMap {α : Type} {f : α → List String} (h : ∀ a, Nested (f a)) :
    ∀ l : List α, Nested (l.flatMap f)
  | [] => .nil
  | a :: l => by
    rw [List.flatMap_cons]
    exact (h a).append (nested_flatMap h l)

/-- **The word of every page is well nested.** -/
theorem nested_pageWord (o : PageOptions) (ns : List Node) : Nested (pageWord o ns) := by
  have hwords : ∀ ns, Nested (words o {} ns) := fun ns => nested_of_each fun n _ => nested_word n
  have hdefinitions := nested_flatMap (f := definitionWord) (fun d => nested_url .nil d.url.display)
    (definitions ns)
  have hnotes := nested_flatMap (fun f : Footnote => hwords f.children) (notes ns)
  exact ((hwords ns).append hdefinitions).append hnotes

/-! ### List items -/

/-- Whether a node is an item of a list. -/
def isItem : Node → Bool
  | .branch (.container .listItem) _ _ => true
  | _ => false

theorem count_ownTags (m : Node) :
    (ownTags o at_ m).count "*" = if isItem m then 1 else 0 := by
  have hvalued : ∀ s t u : String, s.toList ≠ [] ∧ s.toList.head? ≠ some '*' ∧ u ≠ "*" →
      [s ++ t, u].count "*" = 0 := by
    intro s t u h
    have hst : s ++ t ≠ "*" := append_ne h.1 h.2.1
    simp [hst, h.2.2]
  cases m with
  | leaf l p =>
    have hfont : (fontWord o at_).count "*" = 0 := by
      unfold fontWord
      split_ifs
      · rfl
      · rw [String.append_assoc]
        exact hvalued _ _ _ (by decide)
    cases l with
    | literal k v => cases k <;> first | exact hfont | rfl
    | _ => rfl
  | branch b ns p =>
    cases b with
    | container k => cases k <;> rfl
    | heading level => exact hvalued "size=" _ _ (by decide)
    | list ordered start =>
      have hf : flows (.list ordered start) = true := rfl
      rw [ownTags, if_pos hf, opens, closes]
      cases ordered.truthy <;> rfl
    | link url title => exact hvalued "url=" _ _ (by decide)
    | _ => rfl

/-- **As many markers as list items.** -/
theorem count_pageWord (o : PageOptions) (ns : List Node) :
    (pageWord o ns).count "*" = (outsideEach ns).countP isItem := by
  have hdefinitions : ((definitions ns).flatMap definitionWord).count "*" = 0 := by
    refine List.count_eq_zero.2 fun hm => ?_
    obtain ⟨d, -, hd⟩ := List.mem_flatMap.1 hm
    have hne : "url=" ++ d.url.display ≠ "*" := append_ne (by decide) (by decide)
    simp [definitionWord, hne.symm] at hd
  have hwords : ∀ ns, (words o {} ns).count "*" = (metEach ns).countP isItem := by
    intro ns
    rw [(perm_words ns).count_eq, List.count_flatMap]
    induction metEach ns with
    | nil => rfl
    | cons m ms ih =>
      rw [List.map_cons, List.sum_cons, ih, List.countP_cons, Function.comp_apply, count_ownTags,
        Nat.add_comm]
  calc (pageWord o ns).count "*"
    _ = (words o {} (walked ns)).count "*" := by
      rw [pageWord, walked, words_append, words_flatMap]
      simp only [List.count_append, hdefinitions, Nat.add_zero]
    _ = (metEach (walked ns)).countP isItem := hwords _
    _ = (outsideEach ns).countP isItem := (perm_outside ns).countP_eq _

end Bulletin.Proofs.Page.Words
