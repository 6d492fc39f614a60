import Bulletin.Text.Width
import Mathlib.Algebra.Ring.Parity
import Mathlib.Data.List.DropRight
import Mathlib.Tactic.Common

/-! # Widths of texts side by side

The width of a text is not the sum of the widths of its parts: a joiner at the end of one part hides
the first character of the next, and a selector at the start of one widens the character before it.
Next to characters of one cell that no selector widens (`Plain`) only the joiner is left, and of
joiners in a row every second one is hidden itself. So a text with plain characters after it takes
its own cells and theirs, less one if it ends in an odd number of joiners
(`width_append_plain`). -/

namespace Bulletin.Text

variable {c d : Char} {s t : List Char} {last last' : Option Char}

/-! ### Reading a text for its width -/

/-- A text is read for its width in steps: a joiner with the character it hides, or one character. -/
@[elab_as_elim]
theorem stepInduction {motive : List Char → Prop} (nil : motive []) (joiner : motive ['\u200D'])
    (hidden : ∀ c s, motive s → motive ('\u200D' :: c :: s))
    (shown : ∀ c s, c ≠ '\u200D' → motive s → motive (c :: s)) : ∀ s, motive s
  | [] => nil
  | [c] => by
    by_cases hc : c = '\u200D'
    · rw [hc]
      exact joiner
    · exact shown c [] hc nil
  | c :: d :: s => by
    by_cases hc : c = '\u200D'
    · rw [hc]
      exact hidden d s (stepInduction nil joiner hidden shown s)
    · exact shown c (d :: s) hc (stepInduction nil joiner hidden shown (d :: s))

/-- Whether a selector would widen the character before it. -/
def widens (last : Option Char) : Bool := last.elim false (widenedBySelector.contains ·.toNat)

theorem widthAfter_hidden (last : Option Char) (c : Char) (s : List Char) :
    widthAfter last ('\u200D' :: c :: s) = widthAfter last s := by
  rw [widthAfter]

theorem widthAfter_joiner (last : Option Char) : widthAfter last ['\u200D'] = 0 := by
  rw [widthAfter]

theorem widthAfter_shown (hc : c ≠ '\u200D') (last : Option Char) (s : List Char) :
    widthAfter last (c :: s) =
      if c = '\uFE0F' then (if widens last then 1 else 0) + widthAfter none s
      else if charWidth c = 0 then widthAfter last s
      else charWidth c + widthAfter (some c) s := by
  have h₁ : ∀ d r, c = '\u200D' → s = d :: r → False := fun _ _ h _ => hc h
  have h₂ : c = '\u200D' → s = [] → False := fun h _ => hc h
  rw [widthAfter.eq_4 _ _ _ h₁ h₂]
  rfl

/-- **Of the text before it** the width depends on no more than whether a selector would widen its
last character. -/
theorem widthAfter_congr (h : widens last = widens last') :
    widthAfter last s = widthAfter last' s := by
  induction s using stepInduction generalizing last last' with
  | nil => rfl
  | joiner => rw [widthAfter_joiner, widthAfter_joiner]
  | hidden c s ih => rw [widthAfter_hidden, widthAfter_hidden, ih h]
  | shown c s hc ih => rw [widthAfter_shown hc, widthAfter_shown hc, h, ih h]

/-! ### Joiners at the end -/

/-- A text that ends in an odd number of joiners, so that its last one hides what comes after it. -/
def Dangling (s : List Char) : Prop := Odd (s.rtakeWhile (· = '\u200D')).length

instance : DecidablePred Dangling := fun s =>
  inferInstanceAs (Decidable (Odd (s.rtakeWhile (· = '\u200D')).length))

theorem rtakeWhile_append (p : Char → Bool) (s t : List Char) :
    (s ++ t).rtakeWhile p =
      if (t.rtakeWhile p).length = t.length then s.rtakeWhile p ++ t else t.rtakeWhile p := by
  unfold List.rtakeWhile
  rw [List.reverse_append, List.takeWhile_append, List.length_reverse, List.length_reverse]
  split_ifs
  · rw [List.reverse_append, List.reverse_reverse]
  · rfl

/-- What ends in an even number of joiners does not count for the end of a text. -/
theorem dangling_append (h : ¬ Dangling s) : Dangling (s ++ t) ↔ Dangling t := by
  unfold Dangling at h ⊢
  rw [rtakeWhile_append]
  split_ifs with hall
  · have heven : Even (s.rtakeWhile (· = '\u200D')).length := Nat.not_odd_iff_even.1 h
    rw [hall, List.length_append, Nat.odd_add', iff_true_intro heven, iff_true]
  · rfl

theorem not_dangling_nil : ¬ Dangling [] := by decide

theorem dangling_joiner : Dangling ['\u200D'] := by decide

theorem dangling_hidden (c : Char) (s : List Char) : Dangling ('\u200D' :: c :: s) ↔ Dangling s := by
  refine dangling_append (s := ['\u200D', c]) ?_
  by_cases hc : c = '\u200D'
  · rw [hc]
    decide
  · simp [Dangling, List.rtakeWhile, hc]

theorem dangling_shown (hc : c ≠ '\u200D') (s : List Char) : Dangling (c :: s) ↔ Dangling s := by
  refine dangling_append (s := [c]) ?_
  simp [Dangling, List.rtakeWhile, hc]

/-! ### Plain characters -/

/-- A character of one cell that no selector widens, and that is neither a joiner nor a selector. -/
structure Plain (c : Char) : Prop where
  ne_joiner : c ≠ '\u200D'
  ne_selector : c ≠ '\uFE0F'
  charWidth : charWidth c = 1
  not_widened : widens (some c) = false

theorem plain_of_ascii (hlow : 32 ≤ c.toNat) (hhigh : c.toNat < 127)
    (h : widenedBySelector.contains c.toNat = false) : Plain c := by
  have hwidth : charWidth c = 1 := by
    have hcontrol : ¬ ((1 ≤ c.toNat && c.toNat < 32) || (127 ≤ c.toNat && c.toNat < 160)) = true := by
      simp only [Bool.or_eq_true, Bool.and_eq_true, decide_eq_true_eq]
      omega
    have hprinted : (32 ≤ c.toNat && c.toNat < 127) = true := by
      simp only [Bool.and_eq_true, decide_eq_true_eq]
      omega
    rw [charWidth, if_neg hcontrol, if_pos hprinted]
  refine ⟨?_, ?_, hwidth, h⟩
  · rintro rfl
    exact absurd hhigh (by decide)
  · rintro rfl
    exact absurd hhigh (by decide)

theorem width_plain_cons (hc : Plain c) (last : Option Char) (s : List Char) :
    widthAfter last (c :: s) = 1 + width s := by
  have hlast : widthAfter (some c) s = widthAfter none s := widthAfter_congr hc.not_widened
  rw [widthAfter_shown hc.ne_joiner, if_neg hc.ne_selector, hc.charWidth, if_neg one_ne_zero, hlast,
    width]

/-- **Plain characters keep apart** what stands before and after them. -/
theorem width_plain_append (u : List Char) :
    ∀ {t : List Char}, (∀ c ∈ t, Plain c) → width (t ++ u) = t.length + width u
  | [], _ => by rw [List.nil_append, List.length_nil, Nat.zero_add]
  | c :: t, h => by
    rw [List.forall_mem_cons] at h
    rw [List.cons_append, width, width_plain_cons h.1, width_plain_append u h.2, List.length_cons]
    omega

/-- **A text with two plain characters after it** takes its own cells and theirs, but a joiner at
its end hides the first of them. -/
theorem widthAfter_append_plain (hc : Plain c) (hd : Plain d) (last : Option Char)
    (s u : List Char) :
    widthAfter last (s ++ c :: d :: u) + (if Dangling s then 1 else 0) =
      widthAfter last s + 2 + width u := by
  induction s using stepInduction generalizing last with
  | nil =>
    rw [if_neg not_dangling_nil, List.nil_append, width_plain_cons hc, width, width_plain_cons hd,
      widthAfter]
    omega
  | joiner =>
    rw [if_pos dangling_joiner, List.singleton_append, widthAfter_hidden, width_plain_cons hd,
      widthAfter_joiner]
    omega
  | hidden x s ih =>
    simp only [dangling_hidden]
    rw [List.cons_append, List.cons_append, widthAfter_hidden, widthAfter_hidden, ih]
  | shown x s hx ih =>
    simp only [dangling_shown hx]
    rw [List.cons_append, widthAfter_shown hx, widthAfter_shown hx]
    by_cases hselector : x = '\uFE0F'
    · have hrest := ih none
      rw [if_pos hselector, if_pos hselector]
      omega
    · rw [if_neg hselector, if_neg hselector]
      by_cases hzero : charWidth x = 0
      · rw [if_pos hzero, if_pos hzero, ih]
      · have hrest := ih (some x)
        rw [if_neg hzero, if_neg hzero]
        omega

/-- **A text with plain characters after it**, at least two. -/
theorem width_append_plain (ht : ∀ c ∈ t, Plain c) (hlen : 2 ≤ t.length) (s u : List Char) :
    width (s ++ (t ++ u)) + (if Dangling s then 1 else 0) = width s + t.length + width u := by
  obtain ⟨c, t, rfl⟩ := List.exists_cons_of_length_pos (by omega : 0 < t.length)
  rw [List.length_cons] at hlen
  obtain ⟨d, t, rfl⟩ := List.exists_cons_of_length_pos (by omega : 0 < t.length)
  rw [List.forall_mem_cons, List.forall_mem_cons] at ht
  obtain ⟨hc, hd, ht⟩ := ht
  have hpair := widthAfter_append_plain hc hd none s (t ++ u)
  rw [width_plain_append u ht] at hpair
  rw [width, width, List.cons_append, List.cons_append, hpair, List.length_cons, List.length_cons]
  omega

end Bulletin.Text
