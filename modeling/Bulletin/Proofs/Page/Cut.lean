import Bulletin.Text.Blank
import Mathlib.Data.List.DropRight

/-! # Cutting line feeds

To cut a text after `u` is to read it from the left and to leave out every line feed that would
stand right after `u`. Cutting after two line feeds bounds the runs of line feeds, cutting after a
list marker takes the line feeds behind it out. The result is given here by a fold over the text,
so that what is true of it is proved for one more character at the end.

* `not_infix_cut`: no line feed is left right after `u`; `cut_eq_self`: a text of which that is
  true already is not changed.
* `filter_cut`: only line feeds are left out.
* `not_infix_cut_of_not_infix`: unless `u` ends with a line feed itself, no longer run of line feeds
  comes up.
* `cut_gap`: how many line feeds of a run are kept when it is read after a text.
* `infix_cut`, `infix_trim`: what stays whole when a text is cut or trimmed. -/

namespace Bulletin.Proofs.Page.Cut

/-- One step of cutting: a line feed right after `u` is left out. -/
def cutStep (u out : List Char) (c : Char) : List Char :=
  if c = '\n' ∧ u <:+ out then out else out ++ [c]

/-- **A text without the line feeds that would stand right after `u`.** -/
def cut (u s : List Char) : List Char := s.foldl (cutStep u) []

theorem concat_suffix_concat {v out : List Char} {a b : Char} :
    v ++ [b] <:+ out ++ [a] ↔ b = a ∧ v <:+ out := by
  rw [List.suffix_concat_iff]
  constructor
  · rintro (he | ⟨t, ht, hs⟩)
    · simp at he
    · obtain ⟨rfl, hb⟩ := List.append_inj' ht rfl
      exact ⟨List.singleton_inj.mp hb, hs⟩
  · rintro ⟨rfl, hs⟩
    exact Or.inr ⟨v, rfl, hs⟩

variable {u : List Char}

@[simp] theorem cut_nil : cut u [] = [] := rfl

theorem cut_concat (s : List Char) (c : Char) : cut u (s ++ [c]) = cutStep u (cut u s) c := by
  simp [cut, List.foldl_append]

theorem cut_concat_of_ne (s : List Char) {c : Char} (h : c ≠ '\n') :
    cut u (s ++ [c]) = cut u s ++ [c] := by
  rw [cut_concat, cutStep, if_neg fun h' => h h'.1]

theorem prefix_foldl_cutStep : ∀ s out : List Char, out <+: s.foldl (cutStep u) out
  | [], out => List.prefix_rfl
  | c :: s, out => by
    refine List.IsPrefix.trans ?_ (prefix_foldl_cutStep s (cutStep u out c))
    unfold cutStep
    split_ifs
    · exact List.prefix_rfl
    · exact List.prefix_append out [c]

/-- What is cut out of a text that starts with a given part leaves that part's result in place. -/
theorem prefix_cut (s t : List Char) : cut u s <+: cut u (s ++ t) := by
  rw [cut, cut, List.foldl_append]
  exact prefix_foldl_cutStep t _

/-! ### What is left out -/

theorem not_infix_cut (s : List Char) : ¬ u ++ ['\n'] <:+: cut u s := by
  induction s using List.reverseRecOn with
  | nil => simp
  | append_singleton s c ih =>
    rw [cut_concat, cutStep]
    split_ifs with h
    · exact ih
    · rw [List.infix_concat_iff, concat_suffix_concat]
      rintro (⟨hc, hu⟩ | hi)
      · exact h ⟨hc.symm, hu⟩
      · exact ih hi

theorem cut_eq_self {s : List Char} (h : ¬ u ++ ['\n'] <:+: s) : cut u s = s := by
  induction s using List.reverseRecOn with
  | nil => rfl
  | append_singleton s c ih =>
    rw [cut_concat, ih fun hi => h (hi.trans (List.prefix_append s [c]).isInfix), cutStep, if_neg]
    rintro ⟨rfl, hu⟩
    obtain ⟨t, rfl⟩ := hu
    exact h ⟨t, [], by simp⟩

theorem filter_cutStep {q : Char → Bool} (hq : q '\n' = false) (out : List Char) (c : Char) :
    (cutStep u out c).filter q = (out ++ [c]).filter q := by
  unfold cutStep
  split_ifs with h
  · rw [h.1, List.filter_append]; simp [hq]
  · rfl

theorem filter_cut {q : Char → Bool} (hq : q '\n' = false) (s : List Char) :
    (cut u s).filter q = s.filter q := by
  induction s using List.reverseRecOn with
  | nil => rfl
  | append_singleton s c ih =>
    rw [cut_concat, filter_cutStep hq, List.filter_append, ih, List.filter_append]

/-! ### Runs of line feeds -/

/-- After a line feed the result ends with a line feed or with `u`. -/
theorem cut_concat_newline (s : List Char) :
    ['\n'] <:+ cut u (s ++ ['\n']) ∨ u <:+ cut u (s ++ ['\n']) := by
  rw [cut_concat, cutStep]
  split_ifs with h
  · exact Or.inr h.2
  · exact Or.inl (List.suffix_append _ _)

theorem suffix_cut_iff {v : List Char} (hv : ∀ c ∈ v, c ≠ '\n' ∧ ∀ out : List Char, ¬ u <:+ out ++ [c]) :
    ∀ s : List Char, v <:+ cut u s ↔ v <:+ s := by
  induction v using List.reverseRecOn with
  | nil => simp
  | append_singleton v c ih =>
    intro s
    obtain ⟨hc, hu⟩ := hv c (by simp)
    have ih := ih fun d hd => hv d (by simp [hd])
    rcases List.eq_nil_or_concat s with rfl | ⟨s, d, rfl⟩
    · simp
    rw [List.concat_eq_append]
    by_cases hd : d = '\n'
    · subst hd
      refine ⟨fun h => absurd h ?_, fun h => absurd (concat_suffix_concat.mp h).1 hc⟩
      rintro ⟨t, ht⟩
      rw [← List.append_assoc] at ht
      rcases cut_concat_newline (u := u) s with hn | hn
      · rw [← ht] at hn
        exact hc (concat_suffix_concat.mp (show [] ++ ['\n'] <:+ _ from hn)).1.symm
      · rw [← ht] at hn; exact hu _ hn
    · rw [cut_concat_of_ne s hd, concat_suffix_concat, concat_suffix_concat, ih]

theorem replicate_suffix_cut (hu : ∀ out : List Char, ¬ u <:+ out ++ ['\n']) :
    ∀ (s : List Char) (k : ℕ), List.replicate k '\n' <:+ cut u s → List.replicate k '\n' <:+ s := by
  intro s
  induction s using List.reverseRecOn with
  | nil => intro k h; exact h
  | append_singleton s c ih =>
    rintro (_ | k) h
    · exact List.nil_suffix
    rw [List.replicate_succ'] at h ⊢
    rw [cut_concat, cutStep] at h
    split_ifs at h with hc
    · obtain ⟨t, ht⟩ := h
      rw [← List.append_assoc] at ht
      exact absurd (ht ▸ hc.2) (hu _)
    · obtain ⟨hcn, hs⟩ := concat_suffix_concat.mp h
      exact concat_suffix_concat.mpr ⟨hcn, ih k hs⟩

theorem not_infix_cut_of_not_infix (hu : ∀ out : List Char, ¬ u <:+ out ++ ['\n']) {k : ℕ}
    {s : List Char} (h : ¬ List.replicate k '\n' <:+: s) : ¬ List.replicate k '\n' <:+: cut u s := by
  induction s using List.reverseRecOn with
  | nil => exact h
  | append_singleton s c ih =>
    have hs := ih fun hi => h (hi.trans (List.prefix_append s [c]).isInfix)
    have hsuf := replicate_suffix_cut hu (s ++ [c]) k
    rw [cut_concat, cutStep] at hsuf ⊢
    split_ifs at hsuf ⊢ with hc
    · exact hs
    · rw [List.infix_concat_iff]
      rintro (hi | hi)
      · exact h (hsuf hi).isInfix
      · exact hs hi

/-! ### One gap -/

theorem foldl_cutStep_of_suffix {out : List Char} (h : u <:+ out) :
    ∀ k : ℕ, (List.replicate k '\n').foldl (cutStep u) out = out
  | 0 => rfl
  | k + 1 => by
    rw [List.replicate_succ, List.foldl_cons, cutStep, if_pos ⟨rfl, h⟩, foldl_cutStep_of_suffix h k]

theorem foldl_cutStep_of_not_suffix {out : List Char} :
    ∀ k : ℕ, (∀ j < k, ¬ u <:+ out ++ List.replicate j '\n') →
      (List.replicate k '\n').foldl (cutStep u) out = out ++ List.replicate k '\n'
  | 0, _ => by simp
  | k + 1, h => by
    rw [List.replicate_succ', List.foldl_append,
      foldl_cutStep_of_not_suffix k fun j hj => h j (by omega), List.foldl_cons, List.foldl_nil,
      cutStep, if_neg fun h' => h k (by omega) h'.2, List.append_assoc]

/-- **One gap of a text**: the line feeds between two other characters are cut on their own, and
what is before and after them keeps its other characters. -/
theorem cut_gap (pre post : List Char) {a b : Char} (ha : a ≠ '\n') (hb : b ≠ '\n') (k : ℕ) :
    ∃ post', cut u (pre ++ a :: (List.replicate k '\n' ++ b :: post)) =
        (List.replicate k '\n').foldl (cutStep u) (cut u pre ++ [a]) ++ b :: post' ∧
      ∀ q : Char → Bool, q '\n' = false → post'.filter q = post.filter q := by
  set left := pre ++ a :: List.replicate k '\n' with hleft
  have hl : cut u (left ++ [b]) =
      (List.replicate k '\n').foldl (cutStep u) (cut u pre ++ [a]) ++ [b] := by
    rw [cut_concat_of_ne left hb, hleft, ← cut_concat_of_ne pre ha, cut, cut, ← List.foldl_append]
    simp
  have hsplit : pre ++ a :: (List.replicate k '\n' ++ b :: post) = (left ++ [b]) ++ post := by
    simp [hleft]
  obtain ⟨post', hpost⟩ := prefix_cut (u := u) (left ++ [b]) post
  refine ⟨post', ?_, fun q hq => ?_⟩
  · rw [hsplit, ← hpost, hl]; simp
  · have h := filter_cut (u := u) hq ((left ++ [b]) ++ post)
    rw [← hpost, List.filter_append, List.filter_append, filter_cut hq] at h
    exact List.append_cancel_left h

/-! ### Blocks that stay whole -/

/-- A part before whose line feeds `u` never comes is kept as it is. -/
theorem foldl_cutStep_of_kept {out : List Char} : ∀ {block : List Char},
    (∀ pre, pre ++ ['\n'] <+: block → ¬ u <:+ out ++ pre) → block.foldl (cutStep u) out = out ++ block := by
  intro block
  induction block using List.reverseRecOn with
  | nil => simp
  | append_singleton block c ih =>
    intro h
    rw [List.foldl_append, ih fun pre hp => h pre (hp.trans (List.prefix_append block [c])),
      List.foldl_cons, List.foldl_nil, cutStep, if_neg, List.append_assoc]
    rintro ⟨rfl, hu⟩
    exact h block List.prefix_rfl hu

/-- **A block stays whole** if it has no line feed right after `u`, and none at its start, where what
stands before the block could matter. -/
theorem infix_cut {head rest s : List Char} (hlen : u.length ≤ head.length) (hhead : '\n' ∉ head)
    (hu : ¬ u ++ ['\n'] <:+: head ++ rest) (h : head ++ rest <:+: s) : head ++ rest <:+: cut u s := by
  obtain ⟨pre, post, rfl⟩ := h
  have hkept : (head ++ rest).foldl (cutStep u) (cut u pre) = cut u pre ++ (head ++ rest) := by
    refine foldl_cutStep_of_kept fun t ht hsuf => hu ?_
    have hhd : head <+: t := by
      rcases List.prefix_or_prefix_of_prefix ht (List.prefix_append head rest) with h | h
      · exact absurd (h.subset (by simp)) hhead
      · rcases List.prefix_concat_iff.1 h with rfl | h
        · exact absurd (by simp) hhead
        · exact h
    have hut : u <:+ t :=
      List.suffix_of_suffix_length_le hsuf (List.suffix_append _ t) (hlen.trans hhd.length_le)
    obtain ⟨v, rfl⟩ := hut
    exact List.IsInfix.trans ⟨v, [], by simp⟩ ht.isInfix
  have hpre : cut u (pre ++ (head ++ rest)) = cut u pre ++ (head ++ rest) :=
    (List.foldl_append ..).trans hkept
  have hcut : cut u pre ++ (head ++ rest) <+: cut u (pre ++ (head ++ rest) ++ post) :=
    hpre ▸ prefix_cut _ post
  exact (List.suffix_append _ _).isInfix.trans hcut.isInfix

/-! ### Trimmed texts -/

theorem cut_cons_of_ne {c : Char} (h : c ≠ '\n') (s : List Char) : ∃ r, cut u (c :: s) = c :: r := by
  have h1 : cut u [c] = [c] := cut_concat_of_ne [] h
  obtain ⟨r, hr⟩ := prefix_cut (u := u) [c] s
  exact ⟨r, by rw [← List.singleton_append, ← hr, h1]; rfl⟩

variable {p : Char → Bool}

theorem trim_eq_self_iff {s : List Char} : Text.trim p s = s ↔
    (∀ c r, s = c :: r → p c = false) ∧ ∀ r c, s = r ++ [c] → p c = false := by
  have hend : ∀ t : List Char, Text.trimEnd p t = t ↔ ∀ r c, t = r ++ [c] → p c = false := by
    intro t
    show List.rdropWhile p t = t ↔ _
    rw [List.rdropWhile_eq_self_iff]
    constructor
    · rintro h r c rfl; simpa using h (by simp)
    · intro h hne
      have := h t.dropLast (t.getLast hne) (List.dropLast_append_getLast hne).symm
      simp [this]
  constructor
  · intro h
    have hlen : (Text.trimStart p s).length = s.length := by
      have h1 : (Text.trim p s).length ≤ (Text.trimStart p s).length :=
        (List.rdropWhile_prefix p (l := s.dropWhile p)).length_le
      have h2 : (Text.trimStart p s).length ≤ s.length := (List.dropWhile_suffix p).length_le
      rw [h] at h1; omega
    have hst : Text.trimStart p s = s := (List.dropWhile_suffix p).eq_of_length hlen
    refine ⟨?_, (hend s).mp (by rw [← hst] at h; rwa [Text.trim, hst, hst] at h)⟩
    rintro c r rfl
    by_contra hc
    simp only [Text.trimStart, List.dropWhile_cons_of_pos (Bool.not_eq_false _ ▸ hc)] at hst
    have := (List.dropWhile_suffix (l := r) p).length_le
    rw [hst, List.length_cons] at this; omega
  · rintro ⟨h1, h2⟩
    have hst : Text.trimStart p s = s := by
      cases s with
      | nil => rfl
      | cons c r => exact List.dropWhile_cons_of_neg (by simp [h1 c r rfl])
    rw [Text.trim, hst]
    exact (hend s).mpr h2

theorem trim_trim (p : Char → Bool) (s : List Char) :
    Text.trim p (Text.trim p s) = Text.trim p s := by
  rw [trim_eq_self_iff]
  refine ⟨fun c r h => ?_, fun r c h => ?_⟩
  · obtain ⟨t, ht⟩ : Text.trim p s <+: s.dropWhile p := List.rdropWhile_prefix p _
    have hd := List.head?_dropWhile_not p s
    rw [← ht, h] at hd
    exact hd
  · have hne : List.rdropWhile p (s.dropWhile p) ≠ [] := by
      show Text.trim p s ≠ []
      simp [h]
    have hl := List.rdropWhile_last_not p (s.dropWhile p) hne
    rw [List.getLast_congr hne (by simp) (show List.rdropWhile p (s.dropWhile p) = r ++ [c] from h)]
      at hl
    simpa using hl

theorem trim_cut (hp : p '\n' = true) {s : List Char} (h : Text.trim p s = s) :
    Text.trim p (cut u s) = cut u s := by
  rw [trim_eq_self_iff] at h ⊢
  obtain ⟨h1, h2⟩ := h
  refine ⟨fun c r hc => ?_, fun r c hc => ?_⟩
  · cases s with
    | nil => simp at hc
    | cons d s =>
      have hd := h1 d s rfl
      have hne : d ≠ '\n' := by rintro rfl; rw [hp] at hd; cases hd
      obtain ⟨t, ht⟩ := cut_cons_of_ne (u := u) hne s
      rw [ht] at hc
      rw [← (List.cons.inj hc).1]; exact hd
  · rcases List.eq_nil_or_concat s with rfl | ⟨s, d, rfl⟩
    · simp at hc
    · have hd := h2 s d (by simp)
      have hne : d ≠ '\n' := by rintro rfl; rw [hp] at hd; cases hd
      rw [List.concat_eq_append, cut_concat_of_ne s hne] at hc
      rw [← List.singleton_inj.mp (List.append_inj' hc rfl).2]; exact hd

theorem dropWhile_append_of_head {a : Char} {r : List Char} (ha : p a = false) (s : List Char) :
    (s ++ a :: r).dropWhile p = s.dropWhile p ++ a :: r := by
  rw [List.dropWhile_append]
  split_ifs with h
  · rw [List.isEmpty_iff.1 h, List.dropWhile_cons_of_neg (by simp [ha]), List.nil_append]
  · rfl

/-- **A block stays whole when a text is trimmed** if it starts and ends with characters that are not
trimmed. -/
theorem infix_trim {a b : Char} {block s : List Char} (ha : block.head? = some a)
    (hb : block.getLast? = some b) (hpa : p a = false) (hpb : p b = false) (h : block <:+: s) :
    block <:+: Text.trim p s := by
  obtain ⟨pre, post, rfl⟩ := h
  obtain ⟨r, rfl⟩ : ∃ r, block = a :: r := List.head?_eq_some_iff.1 ha
  obtain ⟨l, hl⟩ : ∃ l, a :: r = l ++ [b] := List.getLast?_eq_some_iff.1 hb
  have hstart : Text.trimStart p (pre ++ (a :: r) ++ post) = pre.dropWhile p ++ (a :: r) ++ post := by
    have h := dropWhile_append_of_head (r := r ++ post) hpa pre
    simpa [Text.trimStart] using h
  have hend : Text.trimEnd p (pre.dropWhile p ++ (a :: r) ++ post) =
      pre.dropWhile p ++ (a :: r) ++ (post.reverse.dropWhile p).reverse := by
    have h := dropWhile_append_of_head (r := l.reverse ++ (pre.dropWhile p).reverse) hpb post.reverse
    simp only [Text.trimEnd, hl]
    simpa using congrArg List.reverse h
  rw [Text.trim, hstart, hend]
  exact ⟨_, _, rfl⟩

end Bulletin.Proofs.Page.Cut
