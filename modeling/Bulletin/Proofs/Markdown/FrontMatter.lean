import Bulletin.Convert
import Bulletin.Proofs.Text.Lines
import Mathlib.Data.List.DropRight

/-! # Where front matter ends

A text that opens with a fence is divided at the first later line that is the fence with nothing but
carriage returns and line feeds after it: the lines before it are the block, those after it the rest
of the text (`Division`). The division loses nothing and repeats nothing, and what is written between
two fences is read back (`splitFront_exact`).

The opening fence is told by the line feed after it, alone or with a carriage return before it. For
the closing one the text is cut into lines at every character that ends lines, the vertical tab and
the other separators among them. So the closing fence may stand behind such a separator in the midst
of a line; it stands on a line of its own just if the text is divided in the same way with no line
ends but the carriage return and the line feed (`closing_fence_alone`, `closing_fence_amid_line`). -/

namespace Bulletin.Markdown.FrontMatter

open Bulletin.Text (linesAt LineEnds Seam isLineBreak flatten_linesAt linesAt_append linesAt_congr
  linesAt_eq_append linesAt_single linesAt_append_end ne_nil_of_mem_linesAt seam_of_feed)

variable {p q : Char → Bool} {fence text l : List Char} {ls block after : List (List Char)}

/-! ### Opening and closing lines -/

/-- The line ends behind an opening fence. -/
def openingEnds : List (List Char) := [['\n'], ['\r', '\n']]

/-- A text that opens with a fence on a line of its own. -/
def Opens (fence text : List Char) : Prop := ∃ e ∈ openingEnds, fence ++ e <+: text

/-- A line that closes a block: the fence, with carriage returns and line feeds after it. -/
def Closes (fence line : List Char) : Prop := Text.trimEnd isBreak line = fence

instance : Decidable (Closes fence l) := by
  unfold Closes; infer_instance

/-- **The first line that closes a block**, counted from the line of the opening fence, which is not
looked at. -/
structure FirstClosing (fence : List Char) (lines : List (List Char)) (k : ℕ) : Prop where
  pos : 0 < k
  closes : ∃ l ∈ lines[k]?, Closes fence l
  first : ∀ j, 0 < j → j < k → ∀ l ∈ lines[j]?, ¬ Closes fence l

theorem opens_iff : opens fence text = true ↔ Opens fence text := by
  simp [opens, Opens, openingEnds, Text.startsWith_iff]

instance : Decidable (Opens fence text) := decidable_of_iff _ opens_iff

theorem lineEnds_isBreak : LineEnds isBreak := ⟨by decide, by decide⟩

theorem lineEnds_isLineBreak : LineEnds isLineBreak := ⟨by decide, by decide⟩

theorem isLineBreak_of_isBreak (c : Char) (h : isBreak c = true) : isLineBreak c = true := by
  simp only [isBreak, Bool.or_eq_true, decide_eq_true_eq] at h
  rcases h with rfl | rfl
  · decide
  · decide

theorem isBreak_eq_false {c : Char} (h : isLineBreak c = false) : isBreak c = false := by
  by_contra hb
  rw [isLineBreak_of_isBreak c (by simpa using hb)] at h
  cases h

theorem not_lineBreak_of_mem {f : List Char × Mdast.Literal} (hf : f ∈ fences) :
    f.1 ≠ [] ∧ ∀ c ∈ f.1, isLineBreak c = false := by
  simp only [fences, List.mem_cons, List.not_mem_nil, or_false] at hf
  rcases hf with rfl | rfl
  · simp [isLineBreak]
  · simp [isLineBreak]

/-! ### Ends of texts -/

theorem trimEnd_append {s e : List Char} (h : ∀ c ∈ e, p c = true) :
    Text.trimEnd p (s ++ e) = Text.trimEnd p s := by
  have hdrop : e.reverse.dropWhile p = [] := by simpa using h
  rw [Text.trimEnd, List.reverse_append, List.dropWhile_append, hdrop]
  rfl

theorem trimEnd_eq_self {s : List Char} (h : ∀ c ∈ s.getLast?, p c = false) :
    Text.trimEnd p s = s := by
  refine List.rdropWhile_eq_self_iff.2 fun hne => ?_
  have hlast := h (s.getLast hne) (List.getLast?_eq_getLast_of_ne_nil hne)
  simp [hlast]

/-- **A text is what is left when its end is trimmed, and that end.** -/
theorem exists_eq_trimEnd_append (p : Char → Bool) (s : List Char) :
    ∃ e, s = Text.trimEnd p s ++ e ∧ (∀ c ∈ e, p c = true) ∧
      ∀ c ∈ (Text.trimEnd p s).getLast?, p c = false := by
  refine ⟨s.rtakeWhile p, List.rdropWhile_append_rtakeWhile.symm,
    fun c hc => List.mem_rtakeWhile_imp hc, fun c hc => ?_⟩
  obtain ⟨hne, rfl⟩ := List.mem_getLast?_eq_getLast hc
  have hlast : ¬ p ((s.rdropWhile p).getLast hne) = true := List.rdropWhile_last_not p s hne
  exact Bool.eq_false_iff.2 hlast

theorem Closes.exists_eq (h : Closes fence l) : ∃ e, l = fence ++ e ∧ ∀ c ∈ e, isBreak c = true := by
  obtain ⟨e, hl, he, -⟩ := exists_eq_trimEnd_append isBreak l
  rw [show Text.trimEnd isBreak l = fence from h] at hl
  exact ⟨e, hl, he⟩

theorem closes_append {f : List Char × Mdast.Literal} (hf : f ∈ fences) {e : List Char}
    (he : ∀ c ∈ e, isBreak c = true) : Closes f.1 (f.1 ++ e) := by
  obtain ⟨-, hbreak⟩ := not_lineBreak_of_mem hf
  exact (trimEnd_append he).trans
    (trimEnd_eq_self fun c hc => isBreak_eq_false (hbreak c (List.mem_of_mem_getLast? hc)))

/-! ### Cutting lines at a closing one -/

theorem cut_of_closes (h : Closes fence l) (ls : List (List Char)) :
    cut fence (l :: ls) = some ([], ls) := if_pos h

theorem cut_of_not_closes (h : ¬ Closes fence l) (ls : List (List Char)) :
    cut fence (l :: ls) = (cut fence ls).map fun (block, rest) => (l :: block, rest) := if_neg h

theorem cut_eq_some {rest : List (List Char)} : cut fence ls = some (block, rest) ↔
    ∃ l, ls = block ++ l :: rest ∧ Closes fence l ∧ ∀ l' ∈ block, ¬ Closes fence l' := by
  induction ls generalizing block with
  | nil => simp [cut]
  | cons m ls ih =>
    by_cases hm : Closes fence m
    · rw [cut_of_closes hm]
      constructor
      · intro h
        obtain ⟨rfl, rfl⟩ := Prod.mk.inj (Option.some.inj h)
        exact ⟨m, rfl, hm, by simp⟩
      · rintro ⟨l, hl, hcl, hblock⟩
        cases block with
        | nil => rw [(List.cons.inj hl).2]
        | cons b block =>
          obtain ⟨rfl, -⟩ := List.cons.inj hl
          exact absurd hm (hblock m (by simp))
    · rw [cut_of_not_closes hm, Option.map_eq_some_iff]
      constructor
      · rintro ⟨⟨b, r⟩, hcut, h⟩
        obtain ⟨rfl, rfl⟩ := Prod.mk.inj h
        obtain ⟨l, rfl, hcl, hb⟩ := ih.1 hcut
        refine ⟨l, rfl, hcl, ?_⟩
        rw [List.forall_mem_cons]
        exact ⟨hm, hb⟩
      · rintro ⟨l, hl, hcl, hblock⟩
        cases block with
        | nil =>
          obtain ⟨rfl, -⟩ := List.cons.inj hl
          exact absurd hcl hm
        | cons b block =>
          obtain ⟨rfl, hls⟩ := List.cons.inj hl
          rw [List.forall_mem_cons] at hblock
          exact ⟨(block, rest), ih.2 ⟨l, hls, hcl, hblock.2⟩, rfl⟩

theorem cut_eq_none : cut fence ls = none ↔ ∀ l ∈ ls, ¬ Closes fence l := by
  induction ls with
  | nil => simp [cut]
  | cons m ls ih =>
    rw [List.forall_mem_cons]
    by_cases hm : Closes fence m
    · simp [cut_of_closes hm, hm]
    · rw [cut_of_not_closes hm, Option.map_eq_none_iff, ih]
      simp [hm]

/-! ### Front matter under a class of line ends -/

/-- What is found with one of the fences in a text whose lines end at the characters of a class. -/
def found (p : Char → Bool) (text : List Char) (f : List Char × Mdast.Literal) :
    Option (Mdast.Literal × List Char × List Char) :=
  if opens f.1 text then
    (cut f.1 (linesAt p text).tail).map fun (block, rest) =>
      (f.2, Text.trimEnd isBreak block.flatten, rest.flatten)
  else none

/-- **The front matter of a text whose lines end at the characters of a class**, and the text after
it. -/
def splitAt (p : Char → Bool) (text : List Char) : Option Mdast.Node × List Char :=
  match fences.findSome? (found p text) with
  | some (kind, value, rest) => (some (.literal kind (.str (.ofList value))), rest)
  | none => (none, text)

theorem fullLines_eq (text : List Char) : fullLines text = linesAt isLineBreak text :=
  Text.linesWithBreaks_eq text

theorem split_eq (text : List Char) : split text = splitAt isLineBreak text := by
  have hfound : (fun f : List Char × Mdast.Literal =>
      if opens f.1 text then (between f.1 text).map fun r => (f.2, r) else none) =
      found isLineBreak text := by
    funext f
    rw [found, between, fullLines_eq, Option.map_map]
    rfl
  rw [split, splitAt, ← hfound]
  rfl

theorem eq_of_opens {f g : List Char × Mdast.Literal} (hf : f ∈ fences) (hg : g ∈ fences)
    (hof : Opens f.1 text) (hog : Opens g.1 text) : f = g := by
  obtain ⟨e, he, t, ht⟩ := hof
  obtain ⟨e', he', t', ht'⟩ := hog
  have hhead := congrArg List.head? (ht.trans ht'.symm)
  simp only [fences, List.mem_cons, List.not_mem_nil, or_false] at hf hg
  rcases hf with rfl | rfl <;> rcases hg with rfl | rfl
  · rfl
  · simp at hhead
  · simp at hhead
  · rfl

theorem found_eq_some {f : List Char × Mdast.Literal} {r : Mdast.Literal × List Char × List Char} :
    found p text f = some r ↔ Opens f.1 text ∧ ∃ block after,
      cut f.1 (linesAt p text).tail = some (block, after) ∧
      r = (f.2, Text.trimEnd isBreak block.flatten, after.flatten) := by
  unfold found
  by_cases ho : opens f.1 text = true
  · rw [if_pos ho, Option.map_eq_some_iff]
    have ho' := opens_iff.1 ho
    constructor
    · rintro ⟨⟨block, after⟩, hcut, rfl⟩
      exact ⟨ho', block, after, hcut, rfl⟩
    · rintro ⟨-, block, after, hcut, rfl⟩
      exact ⟨(block, after), hcut, rfl⟩
  · rw [if_neg ho]
    have ho' : ¬ Opens f.1 text := fun h => ho (opens_iff.2 h)
    simp [ho']

theorem splitAt_of_cut {f : List Char × Mdast.Literal} (hf : f ∈ fences) (ho : Opens f.1 text)
    (hcut : cut f.1 (linesAt p text).tail = some (block, after)) :
    splitAt p text =
      (some (.literal f.2 (.str (.ofList (Text.trimEnd isBreak block.flatten)))), after.flatten) := by
  have hfound : found p text f = some (f.2, Text.trimEnd isBreak block.flatten, after.flatten) :=
    found_eq_some.2 ⟨ho, block, after, hcut, rfl⟩
  cases h : fences.findSome? (found p text) with
  | none =>
    have hnone := List.findSome?_eq_none_iff.1 h f hf
    rw [hfound] at hnone
    cases hnone
  | some r =>
    obtain ⟨g, hg, hr⟩ := List.exists_of_findSome?_eq_some h
    obtain ⟨hog, -⟩ := found_eq_some.1 hr
    obtain rfl := eq_of_opens hf hg ho hog
    obtain rfl := Option.some.inj (hfound.symm.trans hr)
    rw [splitAt, h]

theorem splitAt_eq_self
    (h : ∀ f ∈ fences, Opens f.1 text → ∀ l ∈ (linesAt p text).tail, ¬ Closes f.1 l) :
    splitAt p text = (none, text) := by
  have hnone : fences.findSome? (found p text) = none := by
    refine List.findSome?_eq_none_iff.2 fun f hf => ?_
    by_contra hne
    obtain ⟨r, hr⟩ := Option.ne_none_iff_exists'.1 hne
    obtain ⟨ho, block, after, hcut, -⟩ := found_eq_some.1 hr
    rw [cut_eq_none.2 (h f hf ho)] at hcut
    cases hcut
  rw [splitAt, hnone]

/-- **Front matter comes from a fence that opens the text** and lines that are cut at a closing one. -/
theorem exists_of_splitAt {node : Mdast.Node} {rest : List Char}
    (h : splitAt p text = (some node, rest)) :
    ∃ f ∈ fences, Opens f.1 text ∧ ∃ block after,
      cut f.1 (linesAt p text).tail = some (block, after) ∧ rest = after.flatten ∧
      node = .literal f.2 (.str (.ofList (Text.trimEnd isBreak block.flatten))) := by
  unfold splitAt at h
  cases hfind : fences.findSome? (found p text) with
  | none =>
    rw [hfind] at h
    cases h
  | some r =>
    obtain ⟨f, hf, hr⟩ := List.exists_of_findSome?_eq_some hfind
    obtain ⟨ho, block, after, hcut, rfl⟩ := found_eq_some.1 hr
    rw [hfind] at h
    cases h
    exact ⟨f, hf, ho, block, after, hcut, rfl, rfl⟩

/-! ### The lines of a text with front matter -/

/-- **The line of the opening fence** is the first one, for any class of line ends. -/
theorem linesAt_of_opens {f : List Char × Mdast.Literal} (hf : f ∈ fences) (hp : LineEnds p)
    (hsub : ∀ c, p c = true → isLineBreak c = true) {e : List Char} (he : e ∈ openingEnds)
    (t : List Char) : linesAt p (f.1 ++ e ++ t) = (f.1 ++ e) :: linesAt p t := by
  have hfence : ∀ c ∈ f.1, p c = false := by
    intro c hc
    by_contra hne
    have hbreak := hsub c (by simpa using hne)
    rw [(not_lineBreak_of_mem hf).2 c hc] at hbreak
    cases hbreak
  obtain ⟨e', rfl, hend⟩ : ∃ e', e = e' ++ ['\n'] ∧ linesAt p e = [e] := by
    simp only [openingEnds, List.mem_cons, List.not_mem_nil, or_false] at he
    rcases he with rfl | rfl
    · exact ⟨[], rfl, by simp [linesAt, hp.feed_mem]⟩
    · exact ⟨['\r'], rfl, rfl⟩
  have hseam : Seam p (f.1 ++ (e' ++ ['\n'])) t := by
    rw [← List.append_assoc]
    exact seam_of_feed hp _ t
  rw [linesAt_append hp hseam, linesAt_single hp hend hfence]
  rfl

/-- **A text divided by its front matter**: the line of the opening fence, the lines of the block,
none of which closes it, the closing line and the lines after it. -/
structure Division (p : Char → Bool) (fence text first : List Char) (block : List (List Char))
    (closing : List Char) (after : List (List Char)) : Prop where
  lines_eq : linesAt p text = first :: (block ++ closing :: after)
  closes : Closes fence closing
  inside : ∀ l ∈ block, ¬ Closes fence l

section Division
variable {f : List Char × Mdast.Literal} {first closing : List Char} {k : ℕ}

theorem Division.cut_eq (h : Division p fence text first block closing after) :
    cut fence (linesAt p text).tail = some (block, after) := by
  rw [h.lines_eq]
  exact cut_eq_some.2 ⟨closing, rfl, h.closes, h.inside⟩

theorem Division.text_eq (h : Division p fence text first block closing after) :
    text = first ++ block.flatten ++ closing ++ after.flatten := by
  have htext := flatten_linesAt p text
  rw [h.lines_eq] at htext
  simpa using htext.symm

theorem Division.firstClosing (h : Division p fence text first block closing after) :
    FirstClosing fence (linesAt p text) (block.length + 1) := by
  rw [h.lines_eq]
  refine ⟨Nat.succ_pos _, ⟨closing, by simp, h.closes⟩, fun j hj hjk l hl => ?_⟩
  obtain ⟨i, rfl⟩ := Nat.exists_eq_add_of_lt hj
  have hi : i < block.length := by omega
  rw [Nat.zero_add, List.getElem?_cons_succ, List.getElem?_append_left hi] at hl
  exact h.inside l (List.mem_of_getElem? hl)

/-- **A first closing line divides the text.** -/
theorem exists_division (h : FirstClosing fence (linesAt p text) k) :
    ∃ first block closing after, Division p fence text first block closing after ∧
      block.length + 1 = k := by
  obtain ⟨closing, hk, hcl⟩ := h.closes
  have hpos := h.pos
  have hk' : (linesAt p text)[k]? = some closing := hk
  obtain ⟨hlt, hget⟩ := List.getElem?_eq_some_iff.1 hk'
  cases hlines : linesAt p text with
  | nil =>
    rw [hlines] at hlt
    exact absurd hlt (Nat.not_lt_zero k)
  | cons first rest =>
    obtain ⟨i, rfl⟩ : ∃ i, k = i + 1 := ⟨k - 1, by omega⟩
    rw [hlines, List.getElem?_cons_succ] at hk'
    obtain ⟨hi, hget⟩ := List.getElem?_eq_some_iff.1 hk'
    have hrest : rest = rest.take i ++ closing :: rest.drop (i + 1) := by
      rw [← hget, ← List.drop_eq_getElem_cons hi, List.take_append_drop]
    refine ⟨first, rest.take i, closing, rest.drop (i + 1),
      ⟨by rw [hlines, ← hrest], hcl, fun l hl => ?_⟩, by rw [List.length_take]; omega⟩
    obtain ⟨j, hj, rfl⟩ := List.getElem_of_mem hl
    rw [List.length_take] at hj
    have hj' : (linesAt p text)[j + 1]? = some (rest.take i)[j] := by
      rw [hlines, List.getElem?_cons_succ, List.getElem_take]
      exact List.getElem?_eq_getElem _
    exact h.first (j + 1) (Nat.succ_pos j) (by omega) _ hj'

theorem division_of_cut {e : List Char} {t : List Char}
    (hlines : linesAt p text = (fence ++ e) :: linesAt p t)
    (hcut : cut fence (linesAt p text).tail = some (block, after)) :
    ∃ closing, Division p fence text (fence ++ e) block closing after := by
  obtain ⟨closing, hrest, hcl, hin⟩ := cut_eq_some.1 hcut
  rw [hlines, List.tail_cons] at hrest
  exact ⟨closing, by rw [hlines, hrest], hcl, hin⟩

end Division

/-! ### What is read -/

section Reading
variable {f : List Char × Mdast.Literal} {o : MarkdownOptions} {k : ℕ}

theorem exists_of_firstClosing (hf : f ∈ fences) (ho : Opens f.1 text)
    (hk : FirstClosing f.1 (fullLines text) k) :
    ∃ first block closing rest value ends : List Char,
      (fullLines text)[0]? = some first ∧ (fullLines text)[k]? = some closing ∧
      first ++ block ++ closing ++ rest = text ∧
      fullLines block = ((fullLines text).take k).tail ∧ (∀ l ∈ fullLines block, ¬ Closes f.1 l) ∧
      block = value ++ ends ∧ (∀ c ∈ ends, isBreak c = true) ∧
      (∀ c ∈ value.getLast?, isBreak c = false) ∧
      split text = (some (.literal f.2 (.str (.ofList value))), rest) := by
  rw [fullLines_eq] at hk ⊢
  obtain ⟨first, block, closing, after, hdiv, rfl⟩ := exists_division hk
  obtain ⟨ends, hblock, hends, hvalue⟩ := exists_eq_trimEnd_append isBreak block.flatten
  have hlines := hdiv.lines_eq
  have hsame : linesAt isLineBreak block.flatten = block := by
    have hrow : linesAt isLineBreak text = [first] ++ (block ++ closing :: after) := hlines
    obtain ⟨-, hrest, -⟩ := linesAt_eq_append lineEnds_isLineBreak hrow
    exact (linesAt_eq_append lineEnds_isLineBreak hrest).1
  have htake : ((linesAt isLineBreak text).take (block.length + 1)).tail = block := by
    rw [hlines]
    simp
  refine ⟨first, block.flatten, closing, after.flatten, _, ends, by rw [hlines]; rfl, ?_,
    hdiv.text_eq.symm, by rw [fullLines_eq, hsame, htake], ?_, hblock, hends, hvalue, ?_⟩
  · rw [hlines]
    simp
  · rw [fullLines_eq, hsame]
    exact hdiv.inside
  · rw [split_eq]
    exact splitAt_of_cut hf ho hdiv.cut_eq

/-- No line closes a block when a line end is put after its value. -/
theorem not_closes_of_value (hf : f ∈ fences) {e value : List Char} (he : e ∈ openingEnds)
    (hlines : ∀ l ∈ fullLines value, ¬ Closes f.1 l)
    (hvalue : ∀ c ∈ value.getLast?, isBreak c = false) :
    ∀ l ∈ linesAt isLineBreak (value ++ e), ¬ Closes f.1 l := by
  have hbreaks : (∀ c ∈ e, isBreak c = true) ∧ linesAt isLineBreak e = [e] := by
    simp only [openingEnds, List.mem_cons, List.not_mem_nil, or_false] at he
    rcases he with rfl | rfl
    · exact ⟨by simp [isBreak], by decide⟩
    · exact ⟨by simp [isBreak], by decide⟩
  have hreturn : value.getLast? ≠ some '\r' := by
    intro h
    have hr := hvalue '\r' h
    exact absurd hr (by decide)
  have hend : ¬ Closes f.1 e := by
    intro h
    have htrim : Text.trimEnd isBreak e = [] := by
      simpa [Text.trimEnd] using trimEnd_append (s := []) hbreaks.1
    exact (not_lineBreak_of_mem hf).1 (h.symm.trans htrim)
  rw [fullLines_eq] at hlines
  rcases linesAt_append_end lineEnds_isLineBreak hbreaks.2 hreturn with h | ⟨init, last, h, h'⟩
  · intro l hl
    rw [h, List.mem_append, List.mem_singleton] at hl
    rcases hl with hl | rfl
    · exact hlines l hl
    · exact hend
  · intro l hl
    rw [h', List.mem_append, List.mem_singleton] at hl
    rcases hl with hl | rfl
    · exact hlines l (by rw [h]; exact List.mem_append_left _ hl)
    · intro hcl
      have hlast : Closes f.1 last := (trimEnd_append hbreaks.1).symm.trans hcl
      exact hlines last (by rw [h]; simp) hlast

/-- **What is written between two fences is read.** -/
theorem split_written (hf : f ∈ fences) {e₁ e₂ e₃ value : List Char} (h₁ : e₁ ∈ openingEnds)
    (h₂ : e₂ ∈ openingEnds) (h₃ : e₃ ∈ openingEnds) (hlines : ∀ l ∈ fullLines value, ¬ Closes f.1 l)
    (hvalue : ∀ c ∈ value.getLast?, isBreak c = false) (rest : List Char) :
    split (f.1 ++ e₁ ++ value ++ e₂ ++ f.1 ++ e₃ ++ rest) =
      (some (.literal f.2 (.str (.ofList value))), rest) := by
  have hp := lineEnds_isLineBreak
  have hbreaks : ∀ e ∈ openingEnds, ∀ c ∈ e, isBreak c = true := by
    simp [openingEnds, isBreak]
  have hseam : Seam isLineBreak (value ++ e₂) (f.1 ++ e₃ ++ rest) := by
    simp only [openingEnds, List.mem_cons, List.not_mem_nil, or_false] at h₂
    rcases h₂ with rfl | rfl
    · exact seam_of_feed hp value _
    · have h := seam_of_feed hp (value ++ ['\r']) (f.1 ++ e₃ ++ rest)
      rwa [List.append_assoc] at h
  have htext : f.1 ++ e₁ ++ value ++ e₂ ++ f.1 ++ e₃ ++ rest =
      f.1 ++ e₁ ++ ((value ++ e₂) ++ (f.1 ++ e₃ ++ rest)) := by simp only [List.append_assoc]
  have hrow : linesAt isLineBreak (f.1 ++ e₁ ++ value ++ e₂ ++ f.1 ++ e₃ ++ rest) =
      (f.1 ++ e₁) :: (linesAt isLineBreak (value ++ e₂) ++
        (f.1 ++ e₃) :: linesAt isLineBreak rest) := by
    rw [htext, linesAt_of_opens hf hp (fun _ h => h) h₁, linesAt_append hp hseam,
      linesAt_of_opens hf hp (fun _ h => h) h₃]
  have hdiv : Division isLineBreak f.1 (f.1 ++ e₁ ++ value ++ e₂ ++ f.1 ++ e₃ ++ rest) (f.1 ++ e₁)
      (linesAt isLineBreak (value ++ e₂)) (f.1 ++ e₃) (linesAt isLineBreak rest) :=
    ⟨hrow, closes_append hf (hbreaks e₃ h₃), not_closes_of_value hf h₂ hlines hvalue⟩
  have hopens : Opens f.1 (f.1 ++ e₁ ++ value ++ e₂ ++ f.1 ++ e₃ ++ rest) :=
    ⟨e₁, h₁, by rw [htext]; exact List.prefix_append _ _⟩
  rw [split_eq, splitAt_of_cut hf hopens hdiv.cut_eq, flatten_linesAt, flatten_linesAt,
    trimEnd_append (hbreaks e₂ h₂), trimEnd_eq_self hvalue]

theorem splitFront_eq (ho : o.frontMatter.truthy = true) (text : String) :
    o.splitFront text = ((split text.toList).1, .ofList (split text.toList).2) := by
  rw [MarkdownOptions.splitFront, if_pos ho]

theorem split_of_splitFront {text rest : String} {node : Mdast.Node}
    (h : o.splitFront text = (some node, rest)) :
    split text.toList = (some node, (split text.toList).2) ∧ rest = .ofList (split text.toList).2 := by
  by_cases ho : o.frontMatter.truthy = true
  · rw [splitFront_eq ho] at h
    obtain ⟨hnode, hrest⟩ := Prod.mk.inj h
    exact ⟨Prod.ext hnode rfl, hrest.symm⟩
  · rw [MarkdownOptions.splitFront, if_neg ho] at h
    cases (Prod.mk.inj h).1

/-- **The division of a text by its front matter is exact.** If the text opens with a fence and a
later line closes it, the first such line ends the front matter: the opening line, the block, the
closing line and the rest make up the text, the block has no closing line, and its value is the block
without the carriage returns and line feeds at its end. If not, there is no front matter and all of
the text is left. And what is written between two fences on lines of their own, with no line that
closes and no carriage return or line feed at its end, is read as it is. -/
theorem splitFront_exact (ho : o.frontMatter.truthy = true) :
    (∀ (text : String), ∀ f ∈ fences, Opens f.1 text.toList →
      ∀ k, FirstClosing f.1 (fullLines text.toList) k →
        ∃ first block closing rest value ends : List Char,
          (fullLines text.toList)[0]? = some first ∧ (fullLines text.toList)[k]? = some closing ∧
          first ++ block ++ closing ++ rest = text.toList ∧
          fullLines block = ((fullLines text.toList).take k).tail ∧
          (∀ l ∈ fullLines block, ¬ Closes f.1 l) ∧
          block = value ++ ends ∧ (∀ c ∈ ends, isBreak c = true) ∧
          (∀ c ∈ value.getLast?, isBreak c = false) ∧
          o.splitFront text = (some (.literal f.2 (.str (.ofList value))), .ofList rest)) ∧
    (∀ text : String,
      (∀ f ∈ fences, Opens f.1 text.toList →
        ∀ l ∈ (fullLines text.toList).tail, ¬ Closes f.1 l) → o.splitFront text = (none, text)) ∧
    (∀ f ∈ fences, ∀ e₁ ∈ openingEnds, ∀ e₂ ∈ openingEnds, ∀ e₃ ∈ openingEnds,
      ∀ value rest : List Char, (∀ l ∈ fullLines value, ¬ Closes f.1 l) →
        (∀ c ∈ value.getLast?, isBreak c = false) →
        o.splitFront (.ofList (f.1 ++ e₁ ++ value ++ e₂ ++ f.1 ++ e₃ ++ rest)) =
          (some (.literal f.2 (.str (.ofList value))), .ofList rest)) := by
  refine ⟨fun text f hf hopens k hk => ?_, fun text h => ?_,
    fun f hf e₁ h₁ e₂ h₂ e₃ h₃ value rest hlines hvalue => ?_⟩
  · obtain ⟨first, block, closing, rest, value, ends, hfirst, hclosing, htext, hblock, hinside, hends,
      hbreaks, hvalue, hsplit⟩ := exists_of_firstClosing hf hopens hk
    refine ⟨first, block, closing, rest, value, ends, hfirst, hclosing, htext, hblock, hinside, hends,
      hbreaks, hvalue, ?_⟩
    rw [splitFront_eq ho, hsplit]
  · rw [fullLines_eq] at h
    rw [splitFront_eq ho, split_eq, splitAt_eq_self h, String.ofList_toList]
  · rw [splitFront_eq ho, String.toList_ofList, split_written hf h₁ h₂ h₃ hlines hvalue]

/-- Options under which front matter is read. -/
def readingFront : MarkdownOptions := { frontMatter := .bool true }

/-- A text with front matter whose lines end in different ways, and with more fences after it. -/
def mixedText : String := "---\r\na\n\n---\n+++\n---\nb"

/-- A text whose opening fence is not closed. -/
def unclosedText : String := "---\na\n+++\n --- \n"

theorem splitFront_exact_mixed :
    readingFront.frontMatter.truthy = true ∧
    Opens ['-', '-', '-'] mixedText.toList ∧
    FirstClosing ['-', '-', '-'] (fullLines mixedText.toList) 3 ∧
    (∃ block value rest : List Char, fullLines block = [['a', '\n'], ['\n']] ∧
      readingFront.splitFront mixedText =
        (some (.literal .yaml (.str (.ofList value))), .ofList rest)) ∧
    readingFront.splitFront unclosedText = (none, unclosedText) ∧
    readingFront.splitFront (.ofList "+++\r\nk = 1\n\x0B\n+++\r\n+++".toList) =
      (some (.literal .toml (.str (.ofList "k = 1\n\x0B".toList))), .ofList "+++".toList) := by
  have ho : readingFront.frontMatter.truthy = true := by decide
  obtain ⟨hread, hwhole, hwritten⟩ := splitFront_exact ho
  have hopens : Opens ['-', '-', '-'] mixedText.toList := opens_iff.1 (by decide)
  have hfirst : FirstClosing ['-', '-', '-'] (fullLines mixedText.toList) 3 := by
    refine ⟨by decide, ⟨['-', '-', '-', '\n'], by decide, by decide⟩, fun j hj hj3 => ?_⟩
    obtain rfl | rfl : j = 1 ∨ j = 2 := by omega
    · decide
    · decide
  obtain ⟨first, block, closing, rest, value, ends, -, -, -, hblock, -, -, -, -, hsplit⟩ :=
    hread mixedText (['-', '-', '-'], .yaml) (by decide) hopens 3 hfirst
  refine ⟨ho, hopens, hfirst, ⟨block, value, rest, hblock.trans (by decide), hsplit⟩, ?_, ?_⟩
  · exact hwhole unclosedText (by decide)
  · exact hwritten (['+', '+', '+'], .toml) (by decide) ['\r', '\n'] (by decide) ['\n'] (by decide)
      ['\r', '\n'] (by decide) "k = 1\n\x0B".toList "+++".toList (by decide) (by simp [isBreak])

end Reading

/-! ### Closing fences on lines of their own -/

/-- **A closing fence on a line of its own**: the fence of the line with number `k` stands after a
carriage return or a line feed, and before one of them or at the end of the text. -/
def StandsAlone (fence text : List Char) (k : ℕ) : Prop :=
  ∃ before c after, text = before ++ c :: (fence ++ after) ∧
    before ++ [c] = ((fullLines text).take k).flatten ∧ isBreak c = true ∧
    ∀ d ∈ after.head?, isBreak d = true

section Alone
variable {f : List Char × Mdast.Literal} {first closing : List Char}

/-- The characters of a closing line end lines under both classes or under none. -/
theorem linesAt_closing (hf : f ∈ fences) (h : Closes f.1 l) :
    linesAt isBreak l = linesAt isLineBreak l := by
  obtain ⟨e, rfl, he⟩ := h.exists_eq
  refine linesAt_congr fun c hc => ?_
  rcases List.mem_append.1 hc with hc | hc
  · have hline := (not_lineBreak_of_mem hf).2 c hc
    rw [hline, isBreak_eq_false hline]
  · rw [he c hc, isLineBreak_of_isBreak c (he c hc)]

/-- **A line that closes a block stays one** when more characters end lines. -/
theorem mem_linesAt_of_closes (hf : f ∈ fences) (h : Closes f.1 l) {s : List Char}
    (hl : l ∈ linesAt isBreak s) : l ∈ linesAt isLineBreak s := by
  obtain ⟨before, after, hs⟩ := List.append_of_mem hl
  obtain ⟨-, hrest, hseam⟩ := linesAt_eq_append lineEnds_isBreak hs
  have hrow : linesAt isBreak (l :: after).flatten = [l] ++ after := hrest
  obtain ⟨hsingle, -, hseam'⟩ := linesAt_eq_append lineEnds_isBreak hrow
  rw [show [l].flatten = l by simp] at hsingle hseam'
  have htext : s = before.flatten ++ (l ++ after.flatten) := by
    have hflat := flatten_linesAt isBreak s
    rw [hs] at hflat
    simpa using hflat.symm
  have hfine := hseam.mono isLineBreak_of_isBreak
  rw [List.flatten_cons] at hfine
  rw [htext, linesAt_append lineEnds_isLineBreak hfine,
    linesAt_append lineEnds_isLineBreak (hseam'.mono isLineBreak_of_isBreak),
    ← linesAt_closing hf h, hsingle]
  simp

theorem Division.exists_last (hp : LineEnds p)
    (h : Division p fence text first block closing after) (hne : fence ≠ []) :
    ∃ c ∈ (first ++ block.flatten).getLast?, p c = true := by
  have hrow : linesAt p text = (first :: block) ++ (closing :: after) := h.lines_eq
  obtain ⟨-, -, hseam⟩ := linesAt_eq_append hp hrow
  have hfirst : first ≠ [] := ne_nil_of_mem_linesAt first (by rw [hrow]; simp)
  have hclosing : closing ≠ [] := by
    rintro rfl
    exact hne h.closes.symm
  rw [List.flatten_cons, List.flatten_cons] at hseam
  exact hseam.ended (by simp [hfirst]) (by simp [hclosing])

/-- **Behind the closing fence** stands a carriage return or a line feed, or the text is at its end. -/
theorem Division.head_after (hf : f ∈ fences) {e : List Char}
    (h : Division isLineBreak f.1 text first block (f.1 ++ e) after)
    (he : ∀ c ∈ e, isBreak c = true) : ∀ d ∈ (e ++ after.flatten).head?, isBreak d = true := by
  intro d hd
  cases e with
  | cons c e =>
    obtain rfl : c = d := by simpa using hd
    exact he c (by simp)
  | nil =>
    -- the fence has no line end, so a line that is the fence alone is the last one
    have hrow : linesAt isLineBreak text = (first :: block) ++ ((f.1 ++ []) :: after) := h.lines_eq
    obtain ⟨-, hrest, -⟩ := linesAt_eq_append lineEnds_isLineBreak hrow
    have hsplit : linesAt isLineBreak ((f.1 ++ []) :: after).flatten = [f.1 ++ []] ++ after := hrest
    obtain ⟨-, -, hseam⟩ := linesAt_eq_append lineEnds_isLineBreak hsplit
    obtain ⟨hne, hbreak⟩ := not_lineBreak_of_mem hf
    have hlast : [f.1 ++ []].flatten = f.1 := by simp
    rw [hlast] at hseam
    have hafter : after.flatten ≠ [] := by
      intro hnil
      rw [hnil] at hd
      cases hd
    obtain ⟨c, hc, hcb⟩ := hseam.ended hne hafter
    rw [hbreak c (List.mem_of_mem_getLast? hc)] at hcb
    cases hcb

/-- **A closing fence on a line of its own** divides the text also when only carriage returns and
line feeds end lines. -/
theorem Division.coarse (hf : f ∈ fences) {e₁ : List Char} (h₁ : e₁ ∈ openingEnds)
    (h : Division isLineBreak f.1 text (f.1 ++ e₁) block closing after)
    {c : Char} (hc : c ∈ (f.1 ++ e₁ ++ block.flatten).getLast?) (hbreak : isBreak c = true) :
    Division isBreak f.1 text (f.1 ++ e₁) (linesAt isBreak block.flatten) closing
      (linesAt isBreak after.flatten) := by
  obtain ⟨e, rfl, he⟩ := h.closes.exists_eq
  obtain ⟨hne, hfence⟩ := not_lineBreak_of_mem hf
  have hrow : linesAt isLineBreak text = ((f.1 ++ e₁) :: block) ++ ((f.1 ++ e) :: after) := h.lines_eq
  obtain ⟨hrow₁, hrow₂, -⟩ := linesAt_eq_append lineEnds_isLineBreak hrow
  have hrow₃ : linesAt isLineBreak ((f.1 ++ e) :: after).flatten = [f.1 ++ e] ++ after := hrow₂
  obtain ⟨hsingle, -, hseam⟩ := linesAt_eq_append lineEnds_isLineBreak hrow₃
  have hrow₄ : linesAt isLineBreak ((f.1 ++ e₁) :: block).flatten = [f.1 ++ e₁] ++ block := hrow₁
  obtain ⟨-, hblock, -⟩ := linesAt_eq_append lineEnds_isLineBreak hrow₄
  rw [show [f.1 ++ e].flatten = f.1 ++ e by simp] at hsingle hseam
  -- the seam before the closing line
  have hbefore : Seam isBreak (f.1 ++ e₁ ++ block.flatten) (f.1 ++ e ++ after.flatten) := by
    refine ⟨fun _ _ => ⟨c, hc, hbreak⟩, ?_⟩
    rintro ⟨-, hhead⟩
    obtain ⟨d, r, hd⟩ := List.exists_cons_of_ne_nil hne
    have hfeed : d = '\n' := by simpa [hd] using hhead
    have hd' := hfence d (by simp [hd])
    rw [hfeed] at hd'
    exact absurd hd' (by decide)
  -- the seam after it: what ends the closing line is a carriage return or a line feed
  have hafter : Seam isBreak (f.1 ++ e) after.flatten := by
    refine ⟨fun hs ht => ?_, hseam.apart⟩
    obtain ⟨d, hd, hdb⟩ := hseam.ended hs ht
    refine ⟨d, hd, ?_⟩
    rcases List.mem_append.1 (List.mem_of_mem_getLast? hd) with hmem | hmem
    · rw [hfence d hmem] at hdb
      cases hdb
    · exact he d hmem
  have hclosing : linesAt isBreak (f.1 ++ e) = [f.1 ++ e] := by
    rw [linesAt_closing hf h.closes, hsingle]
  have htext : text = f.1 ++ e₁ ++ block.flatten ++ (f.1 ++ e ++ after.flatten) := by
    rw [h.text_eq]
    simp only [List.append_assoc]
  refine ⟨?_, h.closes, fun l hl hcl => ?_⟩
  · have hopening := linesAt_of_opens hf lineEnds_isBreak isLineBreak_of_isBreak h₁ block.flatten
    rw [htext, linesAt_append lineEnds_isBreak hbefore, hopening,
      linesAt_append lineEnds_isBreak hafter, hclosing]
    rfl
  · have hmem := mem_linesAt_of_closes hf hcl hl
    rw [hblock] at hmem
    exact h.inside l hmem hcl

/-- Two closing lines behind which the text goes on in the same way have the same text before them. -/
theorem Division.before_eq {q : Char → Bool} {first' closing' : List Char}
    {block' after' : List (List Char)} (hf : f ∈ fences)
    (h : Division p f.1 text first block closing after)
    (h' : Division q f.1 text first' block' closing' after')
    (hafter : after.flatten = after'.flatten) :
    first ++ block.flatten = first' ++ block'.flatten := by
  obtain ⟨e, rfl, he⟩ := h.closes.exists_eq
  obtain ⟨e', rfl, he'⟩ := h'.closes.exists_eq
  have htext := h.text_eq.symm.trans h'.text_eq
  rw [hafter] at htext
  have hclosed := List.append_cancel_right htext
  have htrim : ∀ {s e : List Char}, (∀ c ∈ e, isBreak c = true) →
      Text.trimEnd isBreak (s ++ (f.1 ++ e)) = s ++ f.1 := by
    intro s e he
    obtain ⟨hne, hbreak⟩ := not_lineBreak_of_mem hf
    rw [← List.append_assoc, trimEnd_append he]
    refine trimEnd_eq_self fun c hc => ?_
    rw [List.getLast?_append_of_ne_nil s hne] at hc
    exact isBreak_eq_false (hbreak c (List.mem_of_mem_getLast? hc))
  have hfence := congrArg (Text.trimEnd isBreak) hclosed
  rw [htrim he, htrim he'] at hfence
  exact List.append_cancel_right hfence

/-- **When the closing fence stands on a line of its own.** Front matter that is read ends at the first
closing line. A character that ends lines stands before the fence of that line, and a carriage return,
a line feed or the end of the text after it. The fence stands on a line of its own just if the text is
divided in the same way when no other characters than carriage returns and line feeds end lines. -/
theorem closing_fence_alone {o : MarkdownOptions} {text : String} {node : Mdast.Node} {rest : String}
    (h : o.splitFront text = (some node, rest)) :
    ∃ f ∈ fences, Opens f.1 text.toList ∧ (∃ value, node = .literal f.2 (.str value)) ∧
      ∃ k, FirstClosing f.1 (fullLines text.toList) k ∧
        (∃ before c ends, text.toList = before ++ c :: (f.1 ++ (ends ++ rest.toList)) ∧
          before ++ [c] = ((fullLines text.toList).take k).flatten ∧ isLineBreak c = true ∧
          ∀ d ∈ (ends ++ rest.toList).head?, isBreak d = true) ∧
        (StandsAlone f.1 text.toList k ↔ splitAt isBreak text.toList = split text.toList) := by
  obtain ⟨hsplit, rfl⟩ := split_of_splitFront h
  obtain ⟨f, hf, ho, block, after, hcut, hrest, hnode⟩ :=
    exists_of_splitAt ((split_eq text.toList).symm.trans hsplit)
  obtain ⟨e₁, h₁, t, ht⟩ := id ho
  have hlines := linesAt_of_opens hf lineEnds_isLineBreak (fun _ hc => hc) h₁ t
  rw [ht] at hlines
  obtain ⟨closing, hdiv⟩ := division_of_cut hlines hcut
  obtain ⟨e, rfl, he⟩ := hdiv.closes.exists_eq
  obtain ⟨c, hc, hcb⟩ := hdiv.exists_last lineEnds_isLineBreak (not_lineBreak_of_mem hf).1
  obtain ⟨before, hbefore⟩ := List.getLast?_eq_some_iff.1 hc
  have htake : before ++ [c] = ((fullLines text.toList).take (block.length + 1)).flatten := by
    rw [← hbefore, fullLines_eq, hdiv.lines_eq]
    simp
  have htext : text.toList = before ++ c :: (f.1 ++ (e ++ after.flatten)) := by
    rw [hdiv.text_eq, hbefore]
    simp
  have hhead := hdiv.head_after hf he
  rw [hrest, String.toList_ofList]
  refine ⟨f, hf, ho, ⟨_, hnode⟩, block.length + 1, ?_, ⟨before, c, e, htext, htake, hcb, hhead⟩, ?_⟩
  · rw [fullLines_eq]
    exact hdiv.firstClosing
  · constructor
    · rintro ⟨before', c', after', -, htake', hbreak, -⟩
      obtain ⟨-, hlast⟩ := List.append_inj' (htake'.trans htake.symm) rfl
      obtain rfl := List.singleton_inj.1 hlast
      have hcoarse := hdiv.coarse hf h₁ hc hbreak
      rw [hsplit, splitAt_of_cut hf ho hcoarse.cut_eq, flatten_linesAt, flatten_linesAt, hnode, hrest]
    · intro hsame
      obtain ⟨g, hg, hog, block', after', hcut', hrest', -⟩ :=
        exists_of_splitAt (hsame.trans hsplit)
      obtain rfl := eq_of_opens hf hg ho hog
      have hlines' := linesAt_of_opens hf lineEnds_isBreak isLineBreak_of_isBreak h₁ t
      rw [ht] at hlines'
      obtain ⟨closing', hdiv'⟩ := division_of_cut hlines' hcut'
      obtain ⟨c', hc', hbreak⟩ := hdiv'.exists_last lineEnds_isBreak (not_lineBreak_of_mem hf).1
      rw [← hdiv.before_eq hf hdiv' (hrest.symm.trans hrest'), hc] at hc'
      obtain rfl := Option.some.inj hc'
      exact ⟨before, c, e ++ after.flatten, htext, htake, hbreak, hhead⟩

theorem closing_fence_alone_mixed :
    readingFront.splitFront mixedText = (some (.literal .yaml (.str "a")), "+++\n---\nb") ∧
    ∃ f ∈ fences, ∃ k, FirstClosing f.1 (fullLines mixedText.toList) k ∧
      StandsAlone f.1 mixedText.toList k := by
  have hread : readingFront.splitFront mixedText =
      (some (.literal .yaml (.str "a")), "+++\n---\nb") := rfl
  obtain ⟨f, hf, -, -, k, hk, -, halone⟩ := closing_fence_alone hread
  have hsame : splitAt isBreak mixedText.toList = split mixedText.toList := rfl
  exact ⟨hread, f, hf, k, hk, halone.2 hsame⟩

/-- A text with a vertical tab before the fence in the midst of a line, and a fence on a line of its
own after it. -/
def tabbedText : String := "---\ntitle: a\x0B---\nb: c\n---\nrest"

/-- **A fence in the midst of a line closes a block**: the front matter of this text ends at the fence
behind the vertical tab, and the rest of the block is left in the text. -/
theorem closing_fence_amid_line :
    readingFront.splitFront tabbedText =
      (some (.literal .yaml (.str "title: a\x0B")), "b: c\n---\nrest") ∧
    FirstClosing ['-', '-', '-'] (fullLines tabbedText.toList) 2 ∧
    ¬ StandsAlone ['-', '-', '-'] tabbedText.toList 2 ∧
    splitAt isBreak tabbedText.toList =
      (some (.literal .yaml (.str "title: a\x0B---\nb: c")), "rest".toList) := by
  refine ⟨rfl, ⟨by decide, ⟨['-', '-', '-', '\n'], by decide, by decide⟩, fun j hj hj2 => ?_⟩,
    ?_, rfl⟩
  · obtain rfl : j = 1 := by omega
    decide
  · rintro ⟨before, c, after, -, htake, hbreak, -⟩
    have hlast : ((fullLines tabbedText.toList).take 2).flatten.getLast? = some '\x0B' := by decide
    rw [← htake, List.getLast?_concat] at hlast
    obtain rfl := Option.some.inj hlast
    exact absurd hbreak (by decide)

end Alone

end Bulletin.Markdown.FrontMatter
