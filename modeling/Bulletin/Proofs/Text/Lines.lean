import Bulletin.Text.Lines
import Mathlib.Data.List.Basic
import Mathlib.Tactic.Common

/-! # Lines that end at a class of characters

Which characters end a line is a parameter here, a class that has the carriage return and the line
feed. A text is the row of its lines (`flatten_linesAt`), and the lines of two texts in a row are
those of the one and then those of the other if there is a seam between them: the first ends with a
line end, and the two do not meet within a carriage return and its line feed (`linesAt_append`).
Between two lines of a text there is always such a seam (`linesAt_eq_append`), so that any part of
the row of lines is cut into the same lines again.

* `linesAt_congr`: classes that agree on the characters of a text cut it into the same lines.
* `splitLines_flatMap`: lines with a line feed after each are read as these lines. -/

namespace Bulletin.Text

/-- The lines of a text that end at the characters of a class, each with its end. A carriage return
and the line feed after it are one end. -/
def linesAt (p : Char → Bool) : List Char → List (List Char)
  | [] => []
  | '\r' :: '\n' :: r => ['\r', '\n'] :: linesAt p r
  | c :: r =>
    if p c then [c] :: linesAt p r
    else
      match linesAt p r with
      | [] => [[c]]
      | l :: ls => (c :: l) :: ls

/-- A class of line ends has the carriage return and the line feed. -/
structure LineEnds (p : Char → Bool) : Prop where
  return_mem : p '\r' = true
  feed_mem : p '\n' = true

/-- **A seam**: two texts in a row of which the first ends with a line end, unless one is empty, and
which do not meet within a carriage return and its line feed. -/
structure Seam (p : Char → Bool) (s t : List Char) : Prop where
  ended : s ≠ [] → t ≠ [] → ∃ c ∈ s.getLast?, p c = true
  apart : ¬ (s.getLast? = some '\r' ∧ t.head? = some '\n')

variable {p q : Char → Bool} {s t : List Char} {l : List Char} {ls : List (List Char)}

theorem linesWithBreaks_eq (s : List Char) :
    ((linesWithBreaks s).map fun (l, b) => l ++ b) = linesAt isLineBreak s := by
  fun_induction linesWithBreaks s with
  | case1 => rfl
  | case2 r ih => simp [linesAt, ih]
  | case3 c r hne h ih => simp [linesAt, h, ih]
  | case4 c r hne h hr ih =>
    rw [hr, List.map_nil] at ih
    simp [linesAt, h, ← ih]
  | case5 c r hne h l b ls hr ih =>
    rw [hr, List.map_cons] at ih
    simp [linesAt, h, ← ih]

/-- **The lines of a text make it up.** -/
theorem flatten_linesAt (p : Char → Bool) (s : List Char) : (linesAt p s).flatten = s := by
  fun_induction linesAt p s with
  | case1 => rfl
  | case2 r ih => simp [ih]
  | case3 c r hne h ih => simp [ih]
  | case4 c r hne h hr ih => simpa [hr] using ih
  | case5 c r hne h l ls hr ih => simpa [hr] using ih

theorem ne_nil_of_mem_linesAt : ∀ l ∈ linesAt p s, l ≠ [] := by
  fun_induction linesAt p s with
  | case1 => simp
  | case2 r ih => simpa using ih
  | case3 c r hne h ih => simpa using ih
  | case4 c r hne h hr ih => simp
  | case5 c r hne h l ls hr ih =>
    rw [hr, List.forall_mem_cons] at ih
    simpa using ih.2

theorem linesAt_eq_nil : linesAt p s = [] ↔ s = [] := by
  constructor
  · intro h
    have hs := flatten_linesAt p s
    rw [h] at hs
    exact hs.symm
  · rintro rfl
    rfl

theorem linesAt_cons (hp : LineEnds p) {c : Char} (hc : p c = false) (s : List Char) :
    linesAt p (c :: s) = match linesAt p s with
      | [] => [[c]]
      | l :: ls => (c :: l) :: ls := by
  have hreturn : c ≠ '\r' := by
    rintro rfl
    rw [hp.return_mem] at hc
    cases hc
  rw [linesAt]
  · rw [if_neg (by simp [hc])]
  · intro r h
    exact absurd h hreturn

/-- A character that ends a line is a line of its own, unless it is a carriage return with a line feed
after it. -/
theorem linesAt_break {c : Char} {r : List Char} (hc : p c = true)
    (hne : ∀ x, c = '\r' → r = '\n' :: x → False)
    (hnil : c = '\r' → r = [] → t.head? ≠ some '\n') :
    linesAt p (c :: (r ++ t)) = [c] :: linesAt p (r ++ t) := by
  have hpair : ∀ x, c = '\r' → r ++ t = '\n' :: x → False := by
    intro x hreturn hx
    cases r with
    | nil =>
      rw [List.nil_append] at hx
      exact hnil hreturn rfl (by rw [hx]; rfl)
    | cons d r =>
      obtain ⟨rfl, -⟩ := List.cons.inj hx
      exact hne r hreturn rfl
  rw [linesAt, if_pos hc]
  exact hpair

/-- **Classes that agree on the characters of a text** cut it into the same lines. -/
theorem linesAt_congr (h : ∀ c ∈ s, p c = q c) : linesAt p s = linesAt q s := by
  fun_induction linesAt p s with
  | case1 => rfl
  | case2 r ih => simp [linesAt, ih fun c hc => h c (by simp [hc])]
  | case3 c r hne hc ih =>
    have hq : q c = true := by rw [← h c (by simp), hc]
    simp [linesAt, hq, ih fun d hd => h d (by simp [hd])]
  | case4 c r hne hc hr ih =>
    have hq : q c = false := by simpa [h c (by simp)] using hc
    have ih' := ih fun d hd => h d (by simp [hd])
    simp [linesAt, hq, ← ih', hr]
  | case5 c r hne hc l ls hr ih =>
    have hq : q c = false := by simpa [h c (by simp)] using hc
    have ih' := ih fun d hd => h d (by simp [hd])
    simp [linesAt, hq, ← ih', hr]

/-! ### Seams -/

theorem Seam.mono (h : Seam p s t) (hpq : ∀ c, p c = true → q c = true) : Seam q s t := by
  refine ⟨fun hs ht => ?_, h.apart⟩
  obtain ⟨c, hc, hpc⟩ := h.ended hs ht
  exact ⟨c, hc, hpq c hpc⟩

theorem seam_of_feed (hp : LineEnds p) (s t : List Char) : Seam p (s ++ ['\n']) t := by
  refine ⟨fun _ _ => ⟨'\n', by simp, hp.feed_mem⟩, ?_⟩
  rintro ⟨h, -⟩
  simp at h

theorem seam_nil_left (t : List Char) : Seam p [] t := by
  refine ⟨fun h => absurd rfl h, ?_⟩
  rintro ⟨h, -⟩
  cases h

theorem seam_nil_right (s : List Char) : Seam p s [] := by
  refine ⟨fun _ h => absurd rfl h, ?_⟩
  rintro ⟨-, h⟩
  cases h

theorem seam_append (hs : s ≠ []) (a : List Char) : Seam p (a ++ s) t ↔ Seam p s t := by
  have hlast : (a ++ s).getLast? = s.getLast? := List.getLast?_append_of_ne_nil a hs
  have hne : a ++ s ≠ [] := by simp [hs]
  constructor
  · intro h
    refine ⟨fun _ ht => ?_, ?_⟩
    · rw [← hlast]
      exact h.ended hne ht
    · rw [← hlast]
      exact h.apart
  · intro h
    refine ⟨fun _ ht => ?_, ?_⟩
    · rw [hlast]
      exact h.ended hs ht
    · rw [hlast]
      exact h.apart

theorem Seam.left {u : List Char} (h : Seam p s (t ++ u)) : Seam p s t := by
  cases t with
  | nil => exact seam_nil_right s
  | cons d t => exact ⟨fun hs _ => h.ended hs (by simp), h.apart⟩

theorem Seam.right {a : List Char} (h : Seam p (a ++ s) t) : Seam p s t := by
  by_cases hs : s = []
  · rw [hs]
    exact seam_nil_left t
  · exact (seam_append hs a).1 h

/-- **The lines of two texts in a row** with a seam between them. -/
theorem linesAt_append (hp : LineEnds p) (h : Seam p s t) :
    linesAt p (s ++ t) = linesAt p s ++ linesAt p t := by
  by_cases ht : t = []
  · simp [ht, linesAt]
  fun_induction linesAt p s with
  | case1 => rfl
  | case2 r ih =>
    have hr : Seam p r t := h.right (a := ['\r', '\n'])
    simp [linesAt, ih hr]
  | case3 c r hne hc ih =>
    have hr : Seam p r t := h.right (a := [c])
    have hnil : c = '\r' → r = [] → t.head? ≠ some '\n' := by
      rintro rfl rfl hhead
      exact h.apart ⟨rfl, hhead⟩
    rw [List.cons_append, linesAt_break hc hne hnil, ih hr, List.cons_append]
  | case4 c r hne hc hr ih =>
    obtain rfl := linesAt_eq_nil.1 hr
    obtain ⟨d, hd, hpd⟩ := h.ended (by simp) ht
    obtain rfl : c = d := by simpa using hd
    exact absurd hpd hc
  | case5 c r hne hc l ls hr ih =>
    have hseam : Seam p r t := h.right (a := [c])
    have hc' : p c = false := by simpa using hc
    rw [List.cons_append, linesAt_cons hp hc', ih hseam, hr]
    rfl

/-- **Between the first line of a text and the others there is a seam**, and each part is cut into
its lines again. -/
theorem linesAt_eq_cons (hp : LineEnds p) (h : linesAt p s = l :: ls) :
    linesAt p l = [l] ∧ linesAt p ls.flatten = ls ∧ Seam p l ls.flatten := by
  fun_induction linesAt p s generalizing l ls with
  | case1 => cases h
  | case2 r ih =>
    obtain ⟨rfl, rfl⟩ := List.cons.inj h
    rw [flatten_linesAt]
    exact ⟨rfl, rfl, seam_of_feed hp ['\r'] r⟩
  | case3 c r hne hc ih =>
    obtain ⟨rfl, rfl⟩ := List.cons.inj h
    rw [flatten_linesAt]
    have hline : linesAt p [c] = [[c]] := by simp [linesAt, hc]
    refine ⟨hline, rfl, fun _ _ => ⟨c, rfl, hc⟩, ?_⟩
    rintro ⟨hlast, hhead⟩
    obtain rfl : c = '\r' := by simpa using hlast
    obtain ⟨r', rfl⟩ := List.head?_eq_some_iff.1 hhead
    exact hne r' rfl rfl
  | case4 c r hne hc hr ih =>
    obtain ⟨rfl, rfl⟩ := List.cons.inj h
    have hline : linesAt p [c] = [[c]] := by simp [linesAt, hc]
    exact ⟨hline, rfl, seam_nil_right [c]⟩
  | case5 c r hne hc l' ls' hr ih =>
    obtain ⟨rfl, rfl⟩ := List.cons.inj h
    obtain ⟨hline, hrest, hseam⟩ := ih hr
    have hl' : l' ≠ [] := ne_nil_of_mem_linesAt l' (hr ▸ List.mem_cons_self)
    refine ⟨?_, hrest, (seam_append hl' [c]).2 hseam⟩
    rw [linesAt_cons hp (by simpa using hc), hline]

/-- **Any part of the lines of a text is cut into the same lines again**, and between two parts in a
row there is a seam. -/
theorem linesAt_eq_append (hp : LineEnds p) : ∀ {ls ls' : List (List Char)} {s : List Char},
    linesAt p s = ls ++ ls' →
      linesAt p ls.flatten = ls ∧ linesAt p ls'.flatten = ls' ∧ Seam p ls.flatten ls'.flatten
  | [], ls', s, h => by
    have hs := flatten_linesAt p s
    rw [h] at hs
    refine ⟨rfl, ?_, seam_nil_left _⟩
    rw [show ls'.flatten = s from hs, h]
    rfl
  | l :: ls, ls', s, h => by
    have hcons : linesAt p s = l :: (ls ++ ls') := h
    obtain ⟨hline, hrest, hseam⟩ := linesAt_eq_cons hp hcons
    obtain ⟨hls, hls', hmid⟩ := linesAt_eq_append hp hrest
    rw [List.flatten_append] at hseam
    refine ⟨?_, hls', ?_⟩
    · rw [List.flatten_cons, linesAt_append hp hseam.left, hline, hls]
      rfl
    · rw [List.flatten_cons]
      by_cases hnil : ls.flatten = []
      · rw [hnil, List.nil_append] at hseam
        rwa [hnil, List.append_nil]
      · exact (seam_append hnil l).2 hmid

/-! ### Line ends after a text -/

theorem linesAt_single (hp : LineEnds p) {e : List Char} (he : linesAt p e = [e]) :
    ∀ {s : List Char}, (∀ c ∈ s, p c = false) → linesAt p (s ++ e) = [s ++ e]
  | [], _ => he
  | c :: s, h => by
    rw [List.forall_mem_cons] at h
    rw [List.cons_append, linesAt_cons hp h.1, linesAt_single hp he h.2]

/-- **A line end after a text** is a line of its own, or ends the last line of the text. -/
theorem linesAt_append_end (hp : LineEnds p) {e : List Char} (he : linesAt p e = [e])
    (hs : s.getLast? ≠ some '\r') :
    linesAt p (s ++ e) = linesAt p s ++ [e] ∨
      ∃ init last, linesAt p s = init ++ [last] ∧ linesAt p (s ++ e) = init ++ [last ++ e] := by
  have htail : ∀ {a r : List Char}, (a ++ r).getLast? ≠ some '\r' → r.getLast? ≠ some '\r' := by
    intro a r h hr
    cases r with
    | nil => cases hr
    | cons d r => exact h (by rw [List.getLast?_append_of_ne_nil a (by simp), hr])
  fun_induction linesAt p s with
  | case1 => exact Or.inl he
  | case2 r ih =>
    have hcons : linesAt p ('\r' :: '\n' :: r ++ e) = ['\r', '\n'] :: linesAt p (r ++ e) := by
      simp [linesAt]
    rcases ih (htail (a := ['\r', '\n']) hs) with h | ⟨init, last, h, h'⟩
    · exact Or.inl (by rw [hcons, h]; rfl)
    · exact Or.inr ⟨['\r', '\n'] :: init, last, by rw [h]; rfl, by rw [hcons, h']; rfl⟩
  | case3 c r hne hc ih =>
    have hnil : c = '\r' → r = [] → e.head? ≠ some '\n' := by
      rintro rfl rfl
      exact absurd rfl hs
    have hcons : linesAt p (c :: r ++ e) = [c] :: linesAt p (r ++ e) := linesAt_break hc hne hnil
    rcases ih (htail (a := [c]) hs) with h | ⟨init, last, h, h'⟩
    · exact Or.inl (by rw [hcons, h]; rfl)
    · exact Or.inr ⟨[c] :: init, last, by rw [h]; rfl, by rw [hcons, h']; rfl⟩
  | case4 c r hne hc hr ih =>
    obtain rfl := linesAt_eq_nil.1 hr
    have hc' : p c = false := by simpa using hc
    refine Or.inr ⟨[], [c], rfl, ?_⟩
    rw [List.cons_append, linesAt_cons hp hc', List.nil_append, he]
    rfl
  | case5 c r hne hc l ls hr ih =>
    have hc' : p c = false := by simpa using hc
    rw [List.cons_append, linesAt_cons hp hc']
    rcases ih (htail (a := [c]) hs) with h | ⟨init, last, h, h'⟩
    · exact Or.inl (by rw [h, hr]; rfl)
    · rw [h']
      rw [hr] at h
      cases init with
      | nil =>
        obtain ⟨rfl, rfl⟩ := List.cons.inj h
        exact Or.inr ⟨[], c :: l, rfl, rfl⟩
      | cons i init =>
        obtain ⟨rfl, rfl⟩ := List.cons.inj h
        exact Or.inr ⟨(c :: l) :: init, last, rfl, rfl⟩

/-! ### Lines with line feeds after them -/

theorem linesWithBreaks_feed (h : ∀ c ∈ s, isLineBreak c = false) (t : List Char) :
    linesWithBreaks (s ++ '\n' :: t) = (s, ['\n']) :: linesWithBreaks t := by
  induction s with
  | nil => simp [linesWithBreaks, isLineBreak]
  | cons c s ih =>
    rw [List.forall_mem_cons] at h
    have hreturn : c ≠ '\r' := by
      rintro rfl
      exact absurd h.1 (by decide)
    rw [List.cons_append, linesWithBreaks, if_neg (by simp [h.1]), ih h.2]
    intro r hc
    exact absurd hc hreturn

/-- **Lines with a line feed after each** are read as these lines. -/
theorem splitLines_flatMap : ∀ {ls : List (List Char)}, (∀ l ∈ ls, ∀ c ∈ l, isLineBreak c = false) →
    splitLines (ls.flatMap (· ++ ['\n'])) = ls
  | [], _ => rfl
  | l :: ls, h => by
    rw [List.forall_mem_cons] at h
    have htext : (l :: ls).flatMap (· ++ ['\n']) = l ++ '\n' :: ls.flatMap (· ++ ['\n']) := by simp
    rw [htext, splitLines, linesWithBreaks_feed h.1, List.map_cons]
    exact congrArg (l :: ·) (splitLines_flatMap h.2)

end Bulletin.Text
