import Bulletin.Text.Ranges
import Mathlib.Data.String.Basic

/-! # Tables of ranges

The ranges of a table are read off a text that is cut up at spaces and hyphens, by positions in the
bytes of the text. The same cuts can be made in the list of its characters (`splitOn_singleton`), so
that a table can be read from the characters of its rows (`ofText_rows`), and evaluated. -/

namespace Bulletin.Text

open String

/-! ### Cuts at a character -/

section Positions
variable (l m : List Char) (d : Char) (r : List Char)

theorem atEnd_between :
    Pos.Raw.atEnd (ofList (l ++ m ++ r)) ⟨utf8Len l + utf8Len m⟩ ↔ r = [] := by
  rw [← utf8Len_append]
  exact atEnd_of_valid (l ++ m) r

theorem get_between :
    Pos.Raw.get (ofList (l ++ m ++ d :: r)) ⟨utf8Len l + utf8Len m⟩ = d := by
  rw [← utf8Len_append]
  exact get_of_valid (l ++ m) (d :: r)

theorem next_between :
    Pos.Raw.next (ofList (l ++ m ++ d :: r)) ⟨utf8Len l + utf8Len m⟩ =
      ⟨utf8Len l + utf8Len m + d.utf8Size⟩ := by
  rw [← utf8Len_append]
  exact next_of_valid (l ++ m) d r

end Positions

/-- A text is cut up at a character after `l`, of which the cuts are in `acc`, and after `m`, which
has no cut yet. -/
theorem splitOnAux_singleton (c : Char) : ∀ (l m r : List Char) (acc : List String),
    splitOnAux (ofList (l ++ m ++ r)) (ofList [c]) ⟨utf8Len l⟩ ⟨utf8Len l + utf8Len m⟩ 0 acc =
      acc.reverse ++ (List.splitOnPPrepend (· == c) r m.reverse).map ofList
  | l, m, [], acc => by
    rw [splitOnAux, if_pos ((atEnd_between l m []).2 rfl), extract_of_valid]
    simp
  | l, m, d :: r, acc => by
    have hend : ¬ Pos.Raw.atEnd (ofList (l ++ m ++ d :: r)) ⟨utf8Len l + utf8Len m⟩ := fun h =>
      List.cons_ne_nil d r ((atEnd_between l m (d :: r)).1 h)
    have hfirst : Pos.Raw.get (ofList [c]) 0 = c := get_of_valid [] [c]
    have hnext : Pos.Raw.next (ofList [c]) 0 = ⟨c.utf8Size⟩ := by
      have h := next_of_valid [] c []
      rwa [utf8Len_nil, Nat.zero_add] at h
    have hlast : Pos.Raw.atEnd (ofList [c]) ⟨c.utf8Size⟩ := by
      have h := (atEnd_of_valid [c] []).2 rfl
      rwa [utf8Len_cons, utf8Len_nil, Nat.zero_add] at h
    rw [splitOnAux, if_neg hend, get_between, hfirst]
    dsimp only
    rw [next_between, hnext]
    by_cases hd : d = c
    · subst hd
      have ih := splitOnAux_singleton d (l ++ m ++ [d]) [] r (ofList m :: acc)
      have hcut : Pos.Raw.unoffsetBy ⟨utf8Len l + utf8Len m + d.utf8Size⟩ ⟨d.utf8Size⟩ =
          ⟨utf8Len l + utf8Len m⟩ := by simp [Pos.Raw.unoffsetBy]
      rw [if_pos (beq_self_eq_true d), if_pos hlast, hcut, extract_of_valid,
        List.splitOnPPrepend_cons_pos (by simp)]
      simpa [-ofList_append, Nat.add_assoc] using ih
    · have ih := splitOnAux_singleton c l (m ++ [d]) r acc
      have hsame : Pos.Raw.unoffsetBy ⟨utf8Len l + utf8Len m⟩ 0 = ⟨utf8Len l + utf8Len m⟩ := rfl
      rw [if_neg (by simpa using hd), hsame, next_between,
        List.splitOnPPrepend_cons_neg (by simpa using hd)]
      simpa [-ofList_append, Nat.add_assoc] using ih

/-- **Cuts at a character**, in the list of the characters of a text. -/
theorem splitOn_singleton (s : String) (c : Char) :
    s.splitOn (ofList [c]) = (s.toList.splitOn c).map ofList := by
  have hne : ¬ (ofList [c] == "") := by simp
  have hcuts := splitOnAux_singleton c [] [] s.toList []
  rw [splitOn, if_neg hne, List.splitOn]
  simpa using hcuts

/-! ### Ranges -/

/-- The number that hexadecimal digits write. -/
def hexOf (s : List Char) : Nat :=
  s.foldl (fun n c => 16 * n + (if c.isDigit then c.toNat - 48 else c.toNat - 55)) 0

/-- The ranges that a table writes, by its characters. -/
def rangesOf (s : List Char) : Ranges :=
  ⟨((s.splitOn ' ').map fun w =>
    match w.splitOn '-' with
    | [a, b] => (hexOf a, hexOf b)
    | _ => (hexOf w, hexOf w)).toArray⟩

theorem ofHex_ofList (w : List Char) : ofHex (ofList w) = hexOf w := by
  rw [ofHex, toList_ofList, hexOf]

/-- **A table can be read off its characters.** -/
theorem ofText_eq (s : String) : Ranges.ofText s = rangesOf s.toList := by
  have hwords : s.splitOn " " = (s.toList.splitOn ' ').map ofList := splitOn_singleton s ' '
  have hbounds : ∀ w : List Char, (ofList w).splitOn "-" = (w.splitOn '-').map ofList := by
    intro w
    have h := splitOn_singleton (ofList w) '-'
    rwa [toList_ofList] at h
  rw [Ranges.ofText, rangesOf, hwords, List.map_map]
  congr 2
  refine List.map_congr_left fun w _ => ?_
  rw [Function.comp_apply, hbounds]
  cases hw : w.splitOn '-' with
  | nil => simp [ofHex_ofList]
  | cons a as =>
    cases as with
    | nil => simp [ofHex_ofList]
    | cons b bs =>
      cases bs with
      | nil => simp [ofHex_ofList]
      | cons d ds => simp [ofHex_ofList]

/-- **A table can be read off the characters of its rows.** -/
theorem ofText_rows {ls : List String} {cs : List (List Char)}
    (h : List.Forall₂ (fun s c => s = ofList c) ls cs) :
    Ranges.ofText (rows ls) = rangesOf ([' '].intercalate cs) := by
  have hmap : ls.map toList = cs := by
    induction h with
    | nil => rfl
    | cons hs _ ih => rw [List.map_cons, ih, hs, toList_ofList]
  have hrows : (rows ls).toList = [' '].intercalate cs := by
    rw [rows, toList_intercalate, hmap]
    rfl
  rw [ofText_eq, hrows]

end Bulletin.Text
