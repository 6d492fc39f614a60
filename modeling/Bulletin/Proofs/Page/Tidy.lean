import Bulletin.Page.Render
import Bulletin.Proofs.Page.Cut

/-! # The last pass over a page

The last pass trims a page, cuts its runs of line feeds to two and takes out the line feeds right
after list markers. Both steps are cuts (`collapse_eq_cut`, `closeMarkers_eq_cut`), and so none
undoes what the ones before it did: a tidied text is clean (`clean_tidy`), and a clean one is not
changed (`tidy_of_clean`). `tidy_gap` says what becomes of one gap between two characters. -/

namespace Bulletin.Proofs.Page.Tidy

open Bulletin.Page
open Bulletin.Proofs.Page.Cut

/-- Two line feeds, after which no third may stand. -/
abbrev gap : List Char := ['\n', '\n']

/-- The marker of a list item. -/
abbrev marker : List Char := ['[', '*', ']']

/-- **A clean text**: no three line feeds in a row, none right after a list marker, and no white
space around it. -/
structure Clean (s : List Char) : Prop where
  noLongGap : ¬ ['\n', '\n', '\n'] <:+: s
  noMarkerGap : ¬ ['[', '*', ']', '\n'] <:+: s
  trimmed : Text.trim Text.isBlank s = s

/-! ### The steps as cuts -/

/-- The end of a text from which `run` is counted: a text that does not end with a line feed, and
that many line feeds, if there are less than two, or else any number from two on. -/
def Tail (run : ℕ) (out : List Char) : Prop :=
  (2 ≤ run ↔ gap <:+ out) ∧ (1 ≤ run ↔ ['\n'] <:+ out)

theorem Tail.newline {run : ℕ} {out : List Char} (h : Tail run out) (hr : run < 2) :
    Tail (run + 1) (out ++ ['\n']) := by
  refine ⟨?_, by simp⟩
  have hs : gap <:+ out ++ ['\n'] ↔ ['\n'] <:+ out := by
    rw [show gap = ['\n'] ++ ['\n'] from rfl, concat_suffix_concat]
    exact and_iff_right rfl
  rw [hs, ← h.2]; omega

theorem Tail.other {c : Char} (hc : c ≠ '\n') (out : List Char) : Tail 0 (out ++ [c]) := by
  have hn : ¬ ['\n'] <:+ out ++ [c] := fun h =>
    hc (concat_suffix_concat.mp (show [] ++ ['\n'] <:+ _ from h)).1.symm
  refine ⟨⟨fun h => by omega, fun h => ?_⟩, ⟨fun h => by omega, fun h => absurd h hn⟩⟩
  exact absurd ((List.suffix_cons '\n' ['\n']).trans h) hn

theorem append_collapse : ∀ (s : List Char) (run : ℕ) (out : List Char), Tail run out →
    out ++ collapse run s = s.foldl (cutStep gap) out
  | [], run, out, _ => by simp [collapse]
  | c :: s, run, out, h => by
    rw [List.foldl_cons, collapse, cutStep]
    by_cases hc : c = '\n'
    · subst hc
      by_cases hr : run < 2
      · rw [if_pos rfl, if_pos hr, if_neg fun h' => by have := h.1.mpr h'.2; omega,
          ← append_collapse s (run + 1) _ (h.newline hr)]
        simp
      · have hg : gap <:+ out := h.1.mp (by omega)
        rw [if_pos rfl, if_neg hr, if_pos ⟨rfl, hg⟩]
        exact append_collapse s (run + 1) out
          ⟨⟨fun _ => hg, fun _ => by omega⟩, ⟨fun _ => h.2.mp (by omega), fun _ => by omega⟩⟩
    · rw [if_neg hc, if_neg fun h' => hc h'.1, ← append_collapse s 0 _ (Tail.other hc out)]
      simp

/-- **Runs are cut to two.** -/
theorem collapse_eq_cut (s : List Char) : collapse 0 s = cut gap s := by
  have h0 : Tail 0 [] := ⟨by simp, by simp⟩
  exact append_collapse s 0 [] h0

theorem marker_suffix_concat {out : List Char} {c : Char} :
    marker <:+ out ++ [c] ↔ c = ']' ∧ ['[', '*'] <:+ out := by
  rw [show marker = ['[', '*'] ++ [']'] from rfl, concat_suffix_concat]
  exact and_congr_left fun _ => eq_comm

theorem suffix_iff_take {out : List Char} :
    ['[', '*'] <:+ out ↔ out.reverse.take 2 = ['*', '['] := by
  rw [← List.reverse_prefix, List.prefix_iff_eq_take]
  exact eq_comm

theorem append_closeMarkers : ∀ (s out : List Char),
    out ++ closeMarkers (decide (marker <:+ out)) (out.reverse.take 2) s =
      s.foldl (cutStep marker) out
  | [], out => by simp [closeMarkers]
  | c :: s, out => by
    rw [List.foldl_cons, closeMarkers, cutStep]
    by_cases h : c = '\n' ∧ marker <:+ out
    · rw [if_pos h, if_pos (by simp [h.1, h.2]), ← append_closeMarkers s out]
      simp [h.2]
    · rw [if_neg h, if_neg (by simpa using h), ← append_closeMarkers s (out ++ [c])]
      have hf : (c = ']' && decide (out.reverse.take 2 = ['*', '['])) =
          decide (marker <:+ out ++ [c]) := by
        simp only [marker_suffix_concat, suffix_iff_take, Bool.decide_and]
      have hb : [c] ++ (out.reverse.take 2).take 1 = (out ++ [c]).reverse.take 2 := by
        simp [List.take_take]
      rw [hf, hb]
      simp

/-- **The line feeds after markers are cut out.** -/
theorem closeMarkers_eq_cut (s : List Char) : closeMarkers false [] s = cut marker s :=
  append_closeMarkers s []

theorem toList_tidy (s : String) :
    (tidy s).toList = cut marker (cut gap (Text.strip s).toList) := by
  simp [tidy, Text.strip, collapse_eq_cut, closeMarkers_eq_cut]

/-! ### Clean texts -/

theorem not_marker_suffix {c : Char} (hc : c ≠ ']') (out : List Char) : ¬ marker <:+ out ++ [c] :=
  fun h => hc (marker_suffix_concat.mp h).1

/-- **A tidied text is clean.** -/
theorem clean_tidy (s : String) : Clean (tidy s).toList := by
  rw [toList_tidy]
  have hblank : Text.isBlank '\n' = true := by decide
  refine ⟨?_, not_infix_cut (u := marker) _, trim_cut hblank (trim_cut hblank ?_)⟩
  · exact not_infix_cut_of_not_infix (k := 3) (not_marker_suffix (by decide))
      (not_infix_cut (u := gap) _)
  · simp [Text.strip, trim_trim]

/-- **A clean text is not changed.** -/
theorem tidy_of_clean {s : String} (h : Clean s.toList) : tidy s = s := by
  have hs : (Text.strip s).toList = s.toList := by simp [Text.strip, h.trimmed]
  refine String.toList_inj.mp ?_
  have hg : cut gap s.toList = s.toList := cut_eq_self h.noLongGap
  have hm : cut marker s.toList = s.toList := cut_eq_self h.noMarkerGap
  rw [toList_tidy, hs, hg, hm]

theorem filter_tidy (s : String) :
    (tidy s).toList.filter (· ≠ '\n') = (Text.strip s).toList.filter (· ≠ '\n') := by
  rw [toList_tidy, filter_cut (by simp), filter_cut (by simp)]

/-! ### One gap -/

/-- Of `k` line feeds after another character two are kept at most. -/
theorem foldl_cutStep_gap {out : List Char} {a : Char} (ha : a ≠ '\n') (k : ℕ) :
    (List.replicate k '\n').foldl (cutStep gap) (out ++ [a]) =
      out ++ [a] ++ List.replicate (min k 2) '\n' := by
  have hshort : ∀ j < 2, ¬ gap <:+ out ++ [a] ++ List.replicate j '\n' := by
    rintro j hj ⟨t, ht⟩
    obtain rfl | rfl : j = 0 ∨ j = 1 := by omega
    · have h := congrArg (fun l => l.reverse.head?) ht
      simp at h
      exact ha h.symm
    · have h := congrArg (fun l => l.reverse.tail.head?) ht
      simp at h
      exact ha h.symm
  have hmin : k = min k 2 + (k - 2) := by omega
  rw [show List.replicate k '\n' = List.replicate (min k 2) '\n' ++ List.replicate (k - 2) '\n' by
      rw [← List.replicate_add, ← hmin], List.foldl_append,
    foldl_cutStep_of_not_suffix _ fun j hj => hshort j (by omega)]
  by_cases hk : 2 ≤ k
  · rw [Nat.min_eq_right hk]
    exact foldl_cutStep_of_suffix (List.suffix_append _ _) _
  · rw [show k - 2 = 0 by omega]; rfl

theorem foldl_cutStep_marker {out : List Char} {a : Char} (k : ℕ) :
    (List.replicate k '\n').foldl (cutStep marker) (out ++ [a]) =
      out ++ [a] ++ List.replicate (if marker <:+ out ++ [a] then 0 else k) '\n' := by
  split_ifs with h
  · rw [foldl_cutStep_of_suffix h]; simp
  · refine foldl_cutStep_of_not_suffix k fun j _ => ?_
    rcases j with _ | j
    · simpa using h
    · rw [List.replicate_succ', ← List.append_assoc]
      exact not_marker_suffix (by decide) _

theorem not_gap_suffix {c : Char} (hc : c ≠ '\n') (out : List Char) : ¬ gap <:+ out ++ [c] :=
  fun h => hc (concat_suffix_concat.mp (show ['\n'] ++ ['\n'] <:+ _ from h)).1.symm

theorem marker_suffix_cut {pre : List Char} {a : Char} :
    marker <:+ cut marker (cut gap pre) ++ [a] ↔ marker <:+ pre ++ [a] := by
  have hne : ∀ c ∈ ['[', '*'], c ≠ '\n' ∧ c ≠ ']' := by simp
  rw [marker_suffix_concat, marker_suffix_concat,
    suffix_cut_iff fun c hc => ⟨(hne c hc).1, not_marker_suffix (hne c hc).2⟩,
    suffix_cut_iff fun c hc => ⟨(hne c hc).1, not_gap_suffix (hne c hc).1⟩]

/-- **What becomes of one gap**: of `k` line feeds between two other characters of the trimmed text
two are kept at most, and none right after a marker. -/
theorem tidy_gap {s : String} {pre post : List Char} {a b : Char} {k : ℕ} (ha : a ≠ '\n')
    (hb : b ≠ '\n') (hs : (Text.strip s).toList = pre ++ a :: (List.replicate k '\n' ++ b :: post)) :
    ∃ pre' post', (tidy s).toList = pre' ++ a ::
        (List.replicate (if marker <:+ pre ++ [a] then 0 else min k 2) '\n' ++ b :: post') ∧
      pre'.filter (· ≠ '\n') = pre.filter (· ≠ '\n') ∧
      post'.filter (· ≠ '\n') = post.filter (· ≠ '\n') := by
  obtain ⟨post₁, h₁, hf₁⟩ := cut_gap (u := gap) pre post ha hb k
  rw [foldl_cutStep_gap ha] at h₁
  obtain ⟨post₂, h₂, hf₂⟩ := cut_gap (u := marker) (cut gap pre) post₁ ha hb (min k 2)
  rw [foldl_cutStep_marker] at h₂
  refine ⟨cut marker (cut gap pre), post₂, ?_, ?_, ?_⟩
  · rw [toList_tidy, hs, h₁]
    simp only [marker_suffix_cut] at h₂
    simpa using h₂
  · rw [filter_cut (by simp), filter_cut (by simp)]
  · rw [hf₂ _ (by simp), hf₁ _ (by simp)]

end Bulletin.Proofs.Page.Tidy
