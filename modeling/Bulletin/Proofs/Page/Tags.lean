import Bulletin.Proofs.Page.Tidy
import Mathlib.Data.List.Infix
import Mathlib.Tactic.Common

/-! # The tags of a text

A tag is an opening bracket, a name without brackets, and a closing bracket. The tags of a text are
read from the left (`tags`); after `[code]` everything up to the next `[/code]` is passed over. Read
so, a text depends on what stands around it: a bracket that is left open takes a later one for its
own. A text that spells a word (`Spells`) is put together from whole tags, closed code and characters
that are no brackets, and such a text has that word for its tags, wherever it stands.

* `tags_of_spells`: the tags of a text that spells a word are that word.
* `Spells.append`: texts in a row spell their words in a row.
* `Spells.thin`, `Spells.trim`: line feeds that are taken out and white space that is trimmed change
  no tags; so the last pass changes none (`Spells.tidy`).
* `not_infix_of_spells`: a tag that is not in the word does not occur in the text. -/

namespace Bulletin.Proofs.Page.Tags

open Bulletin.Page
open Bulletin.Proofs.Page.Cut Bulletin.Proofs.Page.Tidy

/-! ### Reading tags -/

/-- The name of a tag whose opening bracket has been read, and the text after the tag; none if
another bracket is opened before the tag is closed. -/
def name? : List Char → Option (List Char × List Char)
  | [] => none
  | c :: r =>
    if c = ']' then some ([], r)
    else if c = '[' then none
    else (name? r).map fun p => (c :: p.1, p.2)

/-- The end of preformatted text. -/
abbrev closing : List Char := ['[', '/', 'c', 'o', 'd', 'e', ']']

/-- A text from the next end of preformatted text on. -/
def beyondCode : List Char → List Char
  | [] => []
  | c :: r => if closing <+: c :: r then c :: r else beyondCode r

theorem length_of_name? : ∀ {s : List Char} {p : List Char × List Char},
    name? s = some p → p.2.length < s.length
  | c :: r, p, h => by
    rw [name?] at h
    split_ifs at h
    · rw [← Option.some.inj h]
      exact Nat.lt_succ_self r.length
    · obtain ⟨q, hq, rfl⟩ := Option.map_eq_some_iff.1 h
      have hlt := length_of_name? hq
      exact Nat.lt_succ_of_lt hlt

theorem length_beyondCode_le : ∀ s : List Char, (beyondCode s).length ≤ s.length
  | [] => Nat.le_refl 0
  | c :: r => by
    rw [beyondCode]
    split_ifs
    · exact Nat.le_refl _
    · have := length_beyondCode_le r
      rw [List.length_cons]; omega

/-- **The names of the tags of a text**, what stands in preformatted text apart. -/
def tags : List Char → List String
  | [] => []
  | c :: r =>
    if c = '[' then
      match _h : name? r with
      | none => tags r
      | some (t, r') =>
        .ofList t :: if String.ofList t = "code" then tags (beyondCode r') else tags r'
    else tags r
termination_by s => s.length
decreasing_by
  · simp
  · have h1 := length_of_name? _h
    have h2 := length_beyondCode_le r'
    simp only [List.length_cons] at h1 ⊢; omega
  · have h1 := length_of_name? _h
    simp only [List.length_cons] at h1 ⊢; omega
  · simp

/-! ### Texts that spell a word -/

/-- Whether a character is no bracket. -/
def bare (c : Char) : Bool := c != '[' && c != ']'

/-- The name of a tag: on one line, without brackets. -/
def IsName (t : String) : Prop := t.toList.all (fun c => bare c && c != '\n') = true

instance (t : String) : Decidable (IsName t) :=
  inferInstanceAs (Decidable (_ = true))

theorem isName_iff {t : String} : IsName t ↔ t.toList.all bare = true ∧ '\n' ∉ t.toList := by
  simp only [IsName, List.all_eq_true, Bool.and_eq_true, bne_iff_ne]
  refine ⟨fun h => ⟨fun c hc => (h c hc).1, fun hc => (h _ hc).2 rfl⟩, fun h c hc => ⟨h.1 c hc, ?_⟩⟩
  rintro rfl
  exact h.2 hc

/-- **A text that spells a word of tags.** The end of preformatted text must be the first one, also
when its line feeds are taken out. -/
inductive Spells : List Char → List String → Prop
  | nil : Spells [] []
  | char {c : Char} {s : List Char} {w : List String} :
    bare c = true → Spells s w → Spells (c :: s) w
  | tag {t : String} {s : List Char} {w : List String} :
    IsName t → t ≠ "code" → Spells s w → Spells ('[' :: (t.toList ++ ']' :: s)) (t :: w)
  | code {body s : List Char} {w : List String} :
    ¬ closing <:+: body.filter (· ≠ '\n') → Spells s w →
      Spells ("[code]".toList ++ (body ++ (closing ++ s))) ("code" :: "/code" :: w)

theorem Spells.append {s t : List Char} {v w : List String} (hs : Spells s v) (ht : Spells t w) :
    Spells (s ++ t) (v ++ w) := by
  induction hs with
  | nil => exact ht
  | char hc _ ih => exact ih.char hc
  | tag hn hne _ ih => simpa using ih.tag hn hne
  | code hb _ ih => simpa using ih.code hb

theorem name?_append : ∀ {t r : List Char}, t.all bare = true →
    name? (t ++ ']' :: r) = some (t, r)
  | [], r, _ => rfl
  | c :: t, r, h => by
    rw [List.all_cons, Bool.and_eq_true] at h
    have hc : c ≠ '[' ∧ c ≠ ']' := by simpa [bare] using h.1
    rw [List.cons_append, name?, if_neg hc.2, if_neg hc.1, name?_append h.2]
    rfl

theorem beyondCode_append {body s : List Char} (h : ¬ closing <:+: body) :
    beyondCode (body ++ (closing ++ s)) = closing ++ s := by
  induction body with
  | nil =>
    rw [List.nil_append, closing, List.cons_append, beyondCode, if_pos ⟨s, rfl⟩]
  | cons c body ih =>
    rw [List.cons_append, beyondCode, if_neg, ih fun hi => h (hi.trans (List.suffix_cons c body).isInfix)]
    intro hp
    rw [← List.cons_append] at hp
    rcases List.prefix_or_prefix_of_prefix hp (List.prefix_append (c :: body) (closing ++ s)) with hp' | hp'
    · exact h hp'.isInfix
    · -- the body would end inside of the end of preformatted text, which opens one bracket only
      obtain ⟨m, hm⟩ := hp'
      have hm' : m <+: closing ++ s := (List.prefix_append_right_inj (c :: body)).1 (hm ▸ hp)
      cases m with
      | nil => exact h ⟨[], [], by simpa using hm.symm⟩
      | cons d m =>
        have hd : d = '[' := (List.cons_prefix_cons.1 hm').1
        have hmem : '[' ∈ closing.tail := by
          rw [← hm, List.cons_append, List.tail_cons, hd]
          simp
        exact absurd hmem (by decide)

theorem tags_char {c : Char} (hc : c ≠ '[') (s : List Char) : tags (c :: s) = tags s := by
  rw [tags, if_neg hc]

theorem tags_tag {t : String} (ht : IsName t) (hne : t ≠ "code") (s : List Char) :
    tags ('[' :: (t.toList ++ ']' :: s)) = t :: tags s := by
  rw [tags, if_pos rfl]
  have hn := name?_append (r := s) (isName_iff.1 ht).1
  split
  · next h => rw [hn] at h; cases h
  · next u r h =>
    rw [hn] at h
    cases h
    rw [String.ofList_toList, if_neg hne]

theorem tags_code {body s : List Char} (h : ¬ closing <:+: body) :
    tags ("[code]".toList ++ (body ++ (closing ++ s))) = "code" :: tags (closing ++ s) := by
  have hopen : "[code]".toList = '[' :: ("code".toList ++ [']']) := by decide
  have hn : name? ("code".toList ++ ']' :: (body ++ (closing ++ s))) =
      some ("code".toList, body ++ (closing ++ s)) := name?_append (by decide)
  rw [hopen, List.cons_append, List.append_assoc, List.singleton_append, tags, if_pos rfl]
  split
  · next h => rw [hn] at h; cases h
  · next u r h' =>
    rw [hn] at h'
    cases h'
    rw [String.ofList_toList, if_pos rfl, beyondCode_append h]

/-- **The tags of a text that spells a word** are that word. -/
theorem tags_of_spells {s : List Char} {w : List String} (h : Spells s w) : tags s = w := by
  induction h with
  | nil => rw [tags]
  | @char c s w hc _ ih =>
    have hc' : c ≠ '[' ∧ c ≠ ']' := by simpa [bare] using hc
    rw [tags_char hc'.1, ih]
  | tag hn hne _ ih => rw [tags_tag hn hne, ih]
  | @code body s w hb _ ih =>
    have hbody : ¬ closing <:+: body := fun hi => hb (by simpa using hi.filter (· ≠ '\n'))
    have hclose : closing ++ s = '[' :: ("/code".toList ++ ']' :: s) := by
      rw [show "/code".toList = ['/', 'c', 'o', 'd', 'e'] by decide]; rfl
    rw [tags_code hbody, hclose, tags_tag (by decide) (by decide), ih]

/-! ### Pieces of texts -/

theorem spells_of_bare {s : List Char} (h : s.all bare = true) : Spells s [] := by
  induction s with
  | nil => exact .nil
  | cons c s ih =>
    rw [List.all_cons, Bool.and_eq_true] at h
    exact (ih h.2).char h.1

theorem spells_tag {t : String} (ht : IsName t) (hne : t ≠ "code") :
    Spells ("[" ++ t ++ "]").toList [t] := by
  have h : Spells ('[' :: (t.toList ++ ']' :: [])) [t] := .tag ht hne .nil
  have he : ("[" ++ t ++ "]").toList = '[' :: (t.toList ++ [']']) := by simp
  rwa [he]

theorem spells_append {s t : String} {v w : List String} (hs : Spells s.toList v)
    (ht : Spells t.toList w) : Spells (s ++ t).toList (v ++ w) := by
  rw [String.toList_append]
  exact hs.append ht

theorem spells_code {body : String} (h : ¬ closing <:+: body.toList.filter (· ≠ '\n')) :
    Spells ("[code]" ++ body ++ "[/code]").toList ["code", "/code"] := by
  have he : ("[code]" ++ body ++ "[/code]").toList = "[code]".toList ++ (body.toList ++ (closing ++ [])) := by
    simp [closing]
  rw [he]
  exact .code h .nil

theorem spells_intercalate {α : Type} {f : α → String} {g : α → List String} : ∀ {l : List α},
    (∀ a ∈ l, Spells (f a).toList (g a)) →
      Spells ("\n".intercalate (l.map f)).toList (l.flatMap g)
  | [], _ => .nil
  | [a], h => by simpa using h a
  | a :: b :: l, h => by
    rw [List.forall_mem_cons] at h
    have hsep : Spells "\n".toList [] := spells_of_bare (by decide)
    have hrest := spells_intercalate h.2
    rw [List.map_cons, List.map_cons, String.intercalate_cons_cons, List.flatMap_cons]
    simpa using spells_append (spells_append h.1 hsep) hrest

/-- What starts with a character that the start of a text does not have occurs after that start. -/
theorem infix_of_start_append {c : Char} {u a b : List Char} (hc : c ∉ a) (h : c :: u <:+: a ++ b) :
    c :: u <:+: b := by
  induction a with
  | nil => exact h
  | cons d a ih =>
    rw [List.mem_cons, not_or] at hc
    rw [List.cons_append, List.infix_cons_iff] at h
    rcases h with h | h
    · exact absurd (List.cons_prefix_cons.1 h).1 hc.1
    · exact ih hc.2 h

/-- **A tag that is not in the word does not occur in the text**, if there is no preformatted text. -/
theorem not_infix_of_spells {s : List Char} {w : List String} (h : Spells s w) {t : String}
    (ht : t.toList.all bare = true) (hw : t ∉ w) (hc : "code" ∉ w) :
    ¬ '[' :: (t.toList ++ [']']) <:+: s := by
  induction h with
  | nil => simp
  | char hb _ ih =>
    rw [List.infix_cons_iff]
    rintro (hp | hi)
    · rw [← (List.cons_prefix_cons.1 hp).1] at hb
      exact absurd hb (by decide)
    · exact ih hw hc hi
  | @tag u s w hu _ _ ih =>
    rw [List.mem_cons, not_or] at hw hc
    rw [List.infix_cons_iff]
    rintro (hp | hi)
    · -- both names end with the first closing bracket
      obtain ⟨r, hr⟩ := (List.cons_prefix_cons.1 hp).2
      rw [List.append_assoc, List.singleton_append] at hr
      have hname := name?_append (r := r) ht
      rw [hr, name?_append (isName_iff.1 hu).1] at hname
      exact hw.1 (String.toList_inj.1 (Prod.ext_iff.1 (Option.some.inj hname)).1.symm)
    · have hopen : '[' ∉ u.toList ++ [']'] := by
        intro hmem
        rcases List.mem_append.1 hmem with hmem | hmem
        · exact absurd (List.all_eq_true.1 (isName_iff.1 hu).1 '[' hmem) (by decide)
        · exact absurd hmem (by decide)
      refine ih hw.2 hc.2 (infix_of_start_append hopen ?_)
      simpa using hi
  | code _ _ _ => exact absurd List.mem_cons_self hc

/-! ### Line feeds taken out -/

/-- A text is another one without some of its line feeds. -/
inductive Thin : List Char → List Char → Prop
  | nil : Thin [] []
  | keep {c : Char} {s t : List Char} : Thin s t → Thin (c :: s) (c :: t)
  | drop {s t : List Char} : Thin s t → Thin s ('\n' :: t)

theorem Thin.refl : ∀ s : List Char, Thin s s
  | [] => .nil
  | _ :: s => (Thin.refl s).keep

theorem Thin.append {s s' t t' : List Char} (hs : Thin s s') (ht : Thin t t') :
    Thin (s ++ t) (s' ++ t') := by
  induction hs with
  | nil => exact ht
  | keep _ ih => exact ih.keep
  | drop _ ih => exact ih.drop

theorem thin_append {u : List Char} : ∀ {s t : List Char}, Thin u (s ++ t) →
    ∃ s' t', u = s' ++ t' ∧ Thin s' s ∧ Thin t' t
  | [], t, h => ⟨[], u, rfl, .nil, h⟩
  | c :: s, t, h => by
    rw [List.cons_append] at h
    cases h with
    | keep h =>
      obtain ⟨s', t', rfl, hs, ht⟩ := thin_append h
      exact ⟨c :: s', t', rfl, hs.keep, ht⟩
    | drop h =>
      obtain ⟨s', t', rfl, hs, ht⟩ := thin_append h
      exact ⟨s', t', rfl, hs.drop, ht⟩

theorem Thin.eq_of_notMem {s t : List Char} (h : Thin s t) (ht : '\n' ∉ t) : s = t := by
  induction h with
  | nil => rfl
  | keep _ ih =>
    rw [List.mem_cons, not_or] at ht
    rw [ih ht.2]
  | drop _ _ => exact absurd List.mem_cons_self ht

theorem Thin.filter_eq {s t : List Char} (h : Thin s t) :
    s.filter (· ≠ '\n') = t.filter (· ≠ '\n') := by
  induction h with
  | nil => rfl
  | keep _ ih => rw [List.filter_cons, List.filter_cons, ih]
  | drop _ ih => rw [ih, List.filter_cons_of_neg (by simp)]

theorem thin_cut (u s : List Char) : Thin (cut u s) s := by
  induction s using List.reverseRecOn with
  | nil => exact .nil
  | append_singleton s c ih =>
    rw [cut_concat, cutStep]
    split_ifs with h
    · rw [h.1]
      simpa using ih.append (Thin.drop .nil)
    · exact ih.append (Thin.refl [c])

/-- **Line feeds that are taken out change no tags.** -/
theorem Spells.thin {s t : List Char} {w : List String} (h : Spells s w) (ht : Thin t s) :
    Spells t w := by
  induction h generalizing t with
  | nil => cases ht; exact .nil
  | char hc _ ih =>
    cases ht with
    | keep ht => exact (ih ht).char hc
    | drop ht => exact ih ht
  | @tag n s w hn hne _ ih =>
    have hname : '\n' ∉ '[' :: (n.toList ++ [']']) := by simp [(isName_iff.1 hn).2]
    rw [show '[' :: (n.toList ++ ']' :: s) = '[' :: (n.toList ++ [']']) ++ s by simp] at ht
    obtain ⟨a, b, rfl, ha, hb⟩ := thin_append ht
    rw [ha.eq_of_notMem hname]
    simpa using (ih hb).tag hn hne
  | @code body s w hbody _ ih =>
    obtain ⟨a, x, rfl, ha, hx⟩ := thin_append ht
    obtain ⟨b, y, rfl, hb, hy⟩ := thin_append hx
    obtain ⟨d, e, rfl, hd, he⟩ := thin_append hy
    rw [ha.eq_of_notMem (by decide), hd.eq_of_notMem (by decide)]
    exact (ih he).code (by rwa [hb.filter_eq])

/-! ### White space trimmed -/

theorem Spells.of_cons {c : Char} {s : List Char} {w : List String} (h : Spells (c :: s) w)
    (hc : bare c = true) : Spells s w := by
  generalize ht : c :: s = t at h
  cases h with
  | nil => cases ht
  | char _ h => rw [(List.cons.inj ht).2]; exact h
  | tag => 
    rw [(List.cons.inj ht).1] at hc
    exact absurd hc (by decide)
  | code =>
    rw [show "[code]".toList = '[' :: "code]".toList by decide] at ht
    rw [(List.cons.inj ht).1] at hc
    exact absurd hc (by decide)

theorem exists_concat {a s t : List Char} {c d : Char} (h : a ++ d :: t = s ++ [c]) (hne : d ≠ c) :
    ∃ t', t = t' ++ [c] ∧ s = a ++ d :: t' := by
  rcases List.eq_nil_or_concat t with rfl | ⟨t', e, rfl⟩
  · exact absurd (List.singleton_inj.1 (List.append_inj' h rfl).2) hne
  · rw [List.concat_eq_append, ← List.cons_append, ← List.append_assoc] at h
    obtain ⟨hs, he⟩ := List.append_inj' h rfl
    exact ⟨t', by rw [List.concat_eq_append, he], hs.symm⟩

theorem Spells.of_concat {c : Char} {s : List Char} {w : List String} (h : Spells (s ++ [c]) w)
    (hc : bare c = true) : Spells s w := by
  have hne : ']' ≠ c := by rintro rfl; exact absurd hc (by decide)
  generalize ht : s ++ [c] = t at h
  induction h generalizing s with
  | nil => simp at ht
  | @char d t w hd h ih =>
    cases s with
    | nil => rw [← (List.cons.inj ht).2] at h; exact h
    | cons e s =>
      obtain ⟨rfl, hs⟩ := List.cons.inj ht
      exact (ih hs).char hd
  | @tag n t w hn hcode _ ih =>
    obtain ⟨t', rfl, rfl⟩ := exists_concat (a := '[' :: n.toList) ht.symm hne
    exact (ih rfl).tag hn hcode
  | @code body t w hbody _ ih =>
    have ht' : "[code]".toList ++ (body ++ "[/code".toList) ++ ']' :: t = s ++ [c] := by
      rw [ht, show "[/code".toList = ['[', '/', 'c', 'o', 'd', 'e'] by decide]
      simp
    obtain ⟨t', rfl, rfl⟩ := exists_concat ht' hne
    have h := (ih rfl).code hbody
    rw [show "[/code".toList = ['[', '/', 'c', 'o', 'd', 'e'] by decide]
    simpa using h

/-- **White space that is trimmed changes no tags.** -/
theorem Spells.trim {p : Char → Bool} (hp : ∀ c, p c = true → bare c = true) {s : List Char}
    {w : List String} (h : Spells s w) : Spells (Text.trim p s) w := by
  have hstart : ∀ s : List Char, Spells s w → Spells (s.dropWhile p) w := by
    intro s
    induction s with
    | nil => exact id
    | cons c s ih =>
      intro h
      rw [List.dropWhile_cons]
      split_ifs with hc
      · exact ih (h.of_cons (hp c hc))
      · exact h
  have hend : ∀ s : List Char, Spells s w → Spells (s.rdropWhile p) w := by
    intro s
    induction s using List.reverseRecOn with
    | nil => exact id
    | append_singleton s c ih =>
      intro h
      rw [List.rdropWhile_concat]
      split_ifs with hc
      · exact ih (h.of_concat (hp c hc))
      · exact h
  exact hend _ (hstart s h)

theorem bare_of_isBlank {c : Char} (h : Text.isBlank c = true) : bare c = true := by
  by_contra hc
  have hbr : c = '[' ∨ c = ']' := by simpa [bare, or_iff_not_imp_left] using hc
  rcases hbr with rfl | rfl
  · exact absurd h (by decide)
  · exact absurd h (by decide)

theorem Spells.strip {s : String} {w : List String} (h : Spells s.toList w) :
    Spells (Text.strip s).toList w := by
  rw [Text.strip, String.toList_ofList]
  exact h.trim fun c => bare_of_isBlank

/-- **The last pass changes no tags.** -/
theorem Spells.tidy {s : String} {w : List String} (h : Spells s.toList w) :
    Spells (Page.tidy s).toList w := by
  rw [toList_tidy]
  exact (h.strip.thin (thin_cut gap _)).thin (thin_cut marker _)

end Bulletin.Proofs.Page.Tags
