import Bulletin.Text.Blank
import Mathlib.Data.List.TakeWhile
import Mathlib.Tactic.Common

/-! # Words and the blanks between them

A text is cut into its words by characters of a class, the blanks. One blank is enough to divide a text
in two (`wordsBy_append_cons`): the words of the whole are those before it and then those behind it.
Blanks at the ends are no part of the words, so trimming changes none.

* `words_append_gap`: a gap between two texts keeps their words apart.
* `words_strip`: the words of a text without the blanks around it. -/

namespace Bulletin.Text

/-- **A gap**: one blank or more, and nothing else. -/
structure IsGap (s : String) : Prop where
  nonempty : s ≠ ""
  blank : ∀ c ∈ s.toList, isBlank c = true

theorem isGap_space : IsGap " " where
  nonempty := by decide
  blank := by simp [isBlank]

variable {p : Char → Bool} {c : Char}

theorem wordsBy_ne_nil (hc : p c = false) (r : List Char) : wordsBy p (c :: r) ≠ [] := by
  unfold wordsBy
  rw [if_neg (by simp [hc])]
  split
  · simp
  · split_ifs
    · simp
    · split <;> simp

theorem wordsBy_cons_blank (hc : p c = true) (r : List Char) :
    wordsBy p (c :: r) = wordsBy p r := by
  rw [wordsBy.eq_def]
  dsimp only
  rw [if_pos hc]

theorem wordsBy_of_blank : ∀ {s : List Char}, (∀ c ∈ s, p c = true) → wordsBy p s = []
  | [], _ => rfl
  | c :: r, h => by
    obtain ⟨hc, hr⟩ := List.forall_mem_cons.1 h
    rw [wordsBy_cons_blank hc, wordsBy_of_blank hr]

/-- **A blank divides the words** of a text into those before and those behind it. -/
theorem wordsBy_append_cons (hc : p c = true) (r : List Char) :
    ∀ l : List Char, wordsBy p (l ++ c :: r) = wordsBy p l ++ wordsBy p r
  | [] => wordsBy_cons_blank hc r
  | [d] => by
    by_cases hd : p d = true
    · rw [List.singleton_append, wordsBy_cons_blank hd, wordsBy_cons_blank hd, wordsBy_cons_blank hc]
      rfl
    · simp [wordsBy, hd, hc]
  | d :: e :: l => by
    have ih : wordsBy p (e :: (l ++ c :: r)) = wordsBy p (e :: l) ++ wordsBy p r :=
      wordsBy_append_cons hc r (e :: l)
    rw [List.cons_append, List.cons_append, wordsBy, wordsBy, ih]
    by_cases hd : p d = true
    · rw [if_pos hd, if_pos hd]
    · rw [if_neg hd, if_neg hd]
      by_cases he : p e = true
      · simp [he]
      · -- The word that starts before `e` goes on, on both sides.
        obtain ⟨w, ws, hw⟩ := List.exists_cons_of_ne_nil (wordsBy_ne_nil (by simpa using he) l)
        simp [he, hw]

theorem wordsBy_append_blank {s : List Char} (hs : ∀ c ∈ s, p c = true) (l : List Char) :
    wordsBy p (l ++ s) = wordsBy p l := by
  cases s with
  | nil => rw [List.append_nil]
  | cons c r =>
    obtain ⟨hc, hr⟩ := List.forall_mem_cons.1 hs
    rw [wordsBy_append_cons hc, wordsBy_of_blank hr, List.append_nil]

theorem wordsBy_blank_append : ∀ {s : List Char}, (∀ c ∈ s, p c = true) →
    ∀ l : List Char, wordsBy p (s ++ l) = wordsBy p l
  | [], _, _ => rfl
  | c :: s, hs, l => by
    obtain ⟨hc, hs⟩ := List.forall_mem_cons.1 hs
    rw [List.cons_append, wordsBy_cons_blank hc, wordsBy_blank_append hs]

/-- **A gap keeps words apart**: those of the text before it and those of the text behind it. -/
theorem words_append_gap {g : String} (hg : IsGap g) (s t : String) :
    words (s ++ (g ++ t)) = words s ++ words t := by
  obtain ⟨hne, hblank⟩ := hg
  obtain ⟨c, r, hcr⟩ := List.exists_cons_of_ne_nil
    (show g.toList ≠ [] from fun h => hne (String.toList_eq_nil_iff.1 h))
  rw [hcr] at hblank
  obtain ⟨hc, hr⟩ := List.forall_mem_cons.1 hblank
  unfold words
  rw [String.toList_append, String.toList_append, hcr, List.cons_append, wordsBy_append_cons hc,
    wordsBy_blank_append hr, List.map_append]

/-- **The words of a text** are those of the text without the blanks around it. -/
theorem words_strip (s : String) : words (strip s) = words s := by
  have hstart : ∀ l : List Char, wordsBy isBlank (trimStart isBlank l) = wordsBy isBlank l := by
    intro l
    conv_rhs => rw [← List.takeWhile_append_dropWhile (p := isBlank) (l := l)]
    exact (wordsBy_blank_append (fun c hc => List.mem_takeWhile_imp hc) _).symm
  have hend : ∀ l : List Char, wordsBy isBlank (trimEnd isBlank l) = wordsBy isBlank l := by
    intro l
    have hblank : ∀ c ∈ (l.reverse.takeWhile isBlank).reverse, isBlank c = true :=
      fun c hc => List.mem_takeWhile_imp (List.mem_reverse.1 hc)
    have hl : l = trimEnd isBlank l ++ (l.reverse.takeWhile isBlank).reverse := by
      rw [trimEnd, ← List.reverse_append, List.takeWhile_append_dropWhile, List.reverse_reverse]
    conv_rhs => rw [hl, wordsBy_append_blank hblank]
  unfold words strip
  rw [String.toList_ofList, trim, hend, hstart]

end Bulletin.Text
