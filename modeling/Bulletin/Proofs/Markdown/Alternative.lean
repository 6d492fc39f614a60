import Bulletin.Proofs.Markdown.Outline
import Bulletin.Proofs.Text.Words

/-! # The alternative text of an image

An image may be given any tokens as its description, one within the other. Its alternative text is
what the leaves among them say in a row: the raw text of each, and a space for a soft line break. A
line break that is kept on the page, a hard one, has no text of its own, so it leaves nothing behind,
and the words on its two sides run together.

* `leavesEach`: the leaves of a row of tokens. `flatTextEach_eq`: their plain text.
* `Flattened`: texts that hold the leaves in order, with a gap for each line break among them; by
  `Flattened.words` such a text has the words of each line.
* `flattened_leafText`, `no_hard_of_flattened`: no hard line break is what this needs.
* `alt_flattened`: the alternative text of an image. -/

namespace Bulletin.Markdown.Handed

open Mdast (Node)
open Bulletin.Proofs

/-! ### The leaves of a token -/

mutual

/-- **The leaves of a token**: what stands in it and holds no tokens itself. -/
def leaves (v : Value) : List Fields :=
  match v with
  | .dict fields =>
    if Fields.has fields "children" then leavesEach (tokensIn fields) else [fields]
  | _ => []
termination_by sizeOf v
decreasing_by exact sizeOf_tokensIn_lt fields

/-- The leaves of a row of tokens, from left to right. -/
def leavesEach (vs : List Value) : List Fields :=
  match vs with
  | [] => []
  | v :: r => leaves v ++ leavesEach r
termination_by sizeOf vs

end

/-- The leaves of what a token holds. -/
def leavesIn (fields : Fields) : List Fields := leavesEach (tokensIn fields)

/-- Whether a leaf is a line break that only the source has. -/
def isSoftBreak (leaf : Fields) : Bool := typeName leaf = "softbreak"

/-- Whether a leaf is a line break that the page keeps. -/
def isHardBreak (leaf : Fields) : Bool := typeName leaf = "linebreak"

/-- Whether a leaf is a line break. -/
def isBreak (leaf : Fields) : Bool := isSoftBreak leaf || isHardBreak leaf

/-- What a leaf adds to an alternative text. -/
def leafText (leaf : Fields) : String := if isSoftBreak leaf then " " else rawText leaf

/-- The text of leaves that stand on one line. -/
def lineText (line : List Fields) : String := String.join (line.map rawText)

/-- **A text that flattens leaves**: their raw texts in order, and a gap for each leaf of a class, the
line breaks. -/
inductive Flattened (p : Fields → Bool) : List Fields → String → Prop
  | nil : Flattened p [] ""
  | raw {leaf : Fields} {ls : List Fields} {s : String} : p leaf = false →
    Flattened p ls s → Flattened p (leaf :: ls) (rawText leaf ++ s)
  | gap {leaf : Fields} {ls : List Fields} {g s : String} : p leaf = true → Text.IsGap g →
    Flattened p ls s → Flattened p (leaf :: ls) (g ++ s)

/-- The alternative text of an image, or of a reference to one. -/
def alt? : Node → Option Value
  | .leaf (.image _ alt _) _ => some alt
  | .leaf (.imageReference _ alt _) _ => some alt
  | _ => none

mutual

/-- **The plain text of a token** is what its leaves add to it. -/
theorem flatText_eq (v : Value) : flatText v = String.join ((leaves v).map leafText) := by
  cases v with
  | dict fields =>
    rw [flatText, leaves]
    split_ifs with hhas hsoft
    · exact flatTextEach_eq (tokensIn fields)
    · simp [leafText, isSoftBreak, hsoft]
    · simp [leafText, isSoftBreak, hsoft]
  | _ =>
    rw [flatText, leaves]
    · rfl
    · exact nofun
    · exact nofun
termination_by sizeOf v
decreasing_by exact sizeOf_tokensIn_lt fields

theorem flatTextEach_eq (vs : List Value) :
    flatTextEach vs = String.join ((leavesEach vs).map leafText) := by
  cases vs with
  | nil => rw [flatTextEach, leavesEach]; rfl
  | cons v r =>
    rw [flatTextEach, leavesEach, List.map_append, String.join_append, flatText_eq v,
      flatTextEach_eq r]
termination_by sizeOf vs

end

/-! ### Flattened leaves -/

section Flat
variable {p : Fields → Bool} {ls : List Fields} {s : String}

@[simp] theorem lineText_nil : lineText [] = "" := rfl

theorem lineText_append_singleton (line : List Fields) (leaf : Fields) :
    lineText (line ++ [leaf]) = lineText line ++ rawText leaf := by
  simp [lineText]

/-- What has been put on a line before its other leaves is a part of the first line. -/
theorem words_of_flattened (h : Flattened p ls s) (line : List Fields) :
    Text.words (lineText line ++ s) =
      ((ls.splitOnP p).modifyHead (line ++ ·)).flatMap (Text.words <| lineText ·) := by
  induction h generalizing line with
  | nil => simp
  | @raw leaf ls s hleaf _ ih =>
    rw [← String.append_assoc, ← lineText_append_singleton, ih, List.splitOnP_cons_eq_if_modifyHead,
      if_neg (by simp [hleaf]), List.modifyHead_modifyHead]
    simp [Function.comp_def]
  | @gap leaf ls g s hleaf hg _ ih =>
    have hrest : Text.words s = (ls.splitOnP p).flatMap (Text.words <| lineText ·) := by
      simpa [← Function.id_def] using ih []
    rw [List.splitOnP_cons_eq_if_modifyHead, if_pos hleaf, Text.words_append_gap hg, hrest]
    simp

/-- **Words on two lines do not run together**: a text that flattens leaves has the words of each line
of these, one line after the other. -/
theorem Flattened.words (h : Flattened p ls s) :
    Text.words s = (ls.splitOnP p).flatMap (Text.words <| lineText ·) := by
  simpa [← Function.id_def] using words_of_flattened h []

/-- What the leaves add flattens them if only soft line breaks count as breaks among them. -/
theorem flattened_leafText : ∀ {ls : List Fields}, (∀ leaf ∈ ls, p leaf = isSoftBreak leaf) →
    Flattened p ls (String.join (ls.map leafText))
  | [], _ => .nil
  | leaf :: ls, h => by
    obtain ⟨hleaf, hls⟩ := List.forall_mem_cons.1 h
    rw [List.map_cons, String.join_cons, leafText]
    split_ifs with hsoft
    · exact .gap (hleaf.trans hsoft) Text.isGap_space (flattened_leafText hls)
    · exact .raw (hleaf.trans (by simpa using hsoft)) (flattened_leafText hls)

/-- The least length that a leaf takes in a text that flattens it. -/
def leastLength (p : Fields → Bool) (leaf : Fields) : ℕ := if p leaf then 1 else (rawText leaf).length

theorem Flattened.length_le (h : Flattened p ls s) : (ls.map (leastLength p)).sum ≤ s.length := by
  induction h with
  | nil => simp
  | raw hleaf _ ih => simpa [leastLength, hleaf] using ih
  | @gap leaf ls g s hleaf hg _ ih =>
    have hpos : 0 < g.length := Nat.pos_of_ne_zero fun h => hg.nonempty (String.length_eq_zero_iff.1 h)
    simp only [List.map_cons, List.sum_cons, leastLength, hleaf, if_true, String.length_append]
    exact Nat.add_le_add hpos ih

theorem leastLength_eq {leaf : Fields} (hbare : isHardBreak leaf = true → rawText leaf = "") :
    leastLength isBreak leaf = (leafText leaf).length + if isHardBreak leaf then 1 else 0 := by
  unfold leastLength leafText isBreak
  cases hsoft : isSoftBreak leaf <;> cases hhard : isHardBreak leaf
  · simp
  · simp [hbare hhard]
  · have hspace : " ".length = 1 := rfl
    simp [hspace]
  · -- A leaf has one type only.
    simp only [isSoftBreak, isHardBreak, decide_eq_true_eq] at hsoft hhard
    exact absurd (hsoft.symm.trans hhard) (by decide)

/-- What the leaves add falls short of a flattening by a character for each hard line break. -/
theorem sum_leastLength : ∀ {ls : List Fields},
    (∀ leaf ∈ ls, isHardBreak leaf = true → rawText leaf = "") →
      (ls.map (leastLength isBreak)).sum =
        (String.join (ls.map leafText)).length + ls.countP isHardBreak
  | [], _ => rfl
  | leaf :: ls, h => by
    obtain ⟨hleaf, hls⟩ := List.forall_mem_cons.1 h
    rw [List.map_cons, List.sum_cons, List.map_cons, String.join_cons, String.length_append,
      List.countP_cons, leastLength_eq hleaf, sum_leastLength hls]
    omega

/-- **What the leaves add flattens them only if no hard line break is among them**, where these have no
text. -/
theorem no_hard_of_flattened (hbare : ∀ leaf ∈ ls, isHardBreak leaf = true → rawText leaf = "")
    (h : Flattened isBreak ls (String.join (ls.map leafText))) :
    ∀ leaf ∈ ls, isHardBreak leaf = false := by
  have hlength := h.length_le
  rw [sum_leastLength hbare] at hlength
  have hnone : ls.countP isHardBreak = 0 := by omega
  simpa using List.countP_eq_zero.1 hnone

end Flat

/-! ### The alternative text -/

section Image
variable {fields : Fields}

theorem alt_of_imageNode {alt : String} {n : Node} (halt : plainChildren fields = .ok alt)
    (hn : imageNode fields = .ok n) : alt? n = some (.str alt) := by
  unfold imageNode at hn
  rw [halt, Runs.except_ok_bind] at hn
  dsimp only at hn
  split_ifs at hn
  · obtain ⟨key, -, hkey⟩ := Runs.except_bind_eq_ok.1 hn
    cases hkey
    rfl
  · cases hn
    rfl

theorem exists_alt (h : Shaped (.dict fields)) : ∃ n, imageNode fields = .ok n ∧
    alt? n = some (.str (String.join ((leavesIn fields).map leafText))) := by
  obtain ⟨n, hn, -⟩ := imageNode_eq h
  obtain ⟨_, hf, hall⟩ := h
  have halt := plainChildren_flatText hf fun t ht => plainText_flatText (forall_tokensIn hall t ht)
  rw [flatTextEach_eq] at halt
  exact ⟨n, hn, alt_of_imageNode halt hn⟩

/-- **The alternative text of an image**, whatever it holds and however deep: what its leaves add, one
after the other, so that the words on two lines are kept apart wherever the break between them is soft.
With no hard line break among the leaves, it flattens them and has the words of each line; with one, it
does not flatten them, as these have no text. -/
theorem alt_flattened (h : Shaped (.dict fields)) :
    ∃ n alt, imageNode fields = .ok n ∧ alt? n = some (.str alt) ∧
      alt = String.join ((leavesIn fields).map leafText) ∧
      Text.words alt =
        ((leavesIn fields).splitOnP isSoftBreak).flatMap (Text.words <| lineText ·) ∧
      ((∀ leaf ∈ leavesIn fields, isHardBreak leaf = false) →
        Flattened isBreak (leavesIn fields) alt ∧
        Text.words alt =
          ((leavesIn fields).splitOnP isBreak).flatMap (Text.words <| lineText ·)) ∧
      ((∀ leaf ∈ leavesIn fields, isHardBreak leaf = true → rawText leaf = "") →
        Flattened isBreak (leavesIn fields) alt →
          ∀ leaf ∈ leavesIn fields, isHardBreak leaf = false) := by
  obtain ⟨n, hn, halt⟩ := exists_alt h
  have hsoft : Flattened isSoftBreak (leavesIn fields) _ := flattened_leafText fun _ _ => rfl
  refine ⟨n, _, hn, halt, rfl, hsoft.words, fun hnone => ?_, no_hard_of_flattened⟩
  have hflat : Flattened isBreak (leavesIn fields) _ :=
    flattened_leafText fun leaf hleaf => by simp [isBreak, hnone leaf hleaf]
  exact ⟨hflat, hflat.words⟩

/-- An image with a soft line break in the midst of its description. -/
def lined : Fields := [("type", .str "image"), ("attrs", .dict [("url", .str "logo.png")]),
  ("children", .list [token "text" [("raw", .str "the ")],
    token "strong" [("children", .list [token "emphasis" [("children", .list [
      token "text" [("raw", .str "new")], token "softbreak" []])],
      token "codespan" [("raw", .str "logo")]])]])]

theorem leavesIn_lined : leavesIn lined = [[("type", .str "text"), ("raw", .str "the ")],
    [("type", .str "text"), ("raw", .str "new")], [("type", .str "softbreak")],
    [("type", .str "codespan"), ("raw", .str "logo")]] := by
  simp [leavesIn, leavesEach, leaves, lined, token, tokensIn, Fields.get?, Fields.has,
    List.lookup_cons]

theorem alt_flattened_lined : Shaped (.dict lined) ∧
    ∃ n, imageNode lined = .ok n ∧ alt? n = some (.str "the new logo") ∧
      Flattened isBreak (leavesIn lined) "the new logo" ∧
      Text.words "the new logo" =
        ((leavesIn lined).splitOnP isBreak).flatMap (Text.words <| lineText ·) := by
  have hshaped : Shaped (.dict lined) := by
    refine .branch rfl rfl (forall_mem_pair (.leaf rfl rfl) (.branch rfl rfl ?_))
    refine forall_mem_pair (.branch rfl rfl ?_) (.leaf rfl rfl)
    exact forall_mem_pair (.leaf rfl rfl) (.leaf rfl rfl)
  have hnone : ∀ leaf ∈ leavesIn lined, isHardBreak leaf = false := by
    rw [leavesIn_lined]
    decide
  have htext : String.join ((leavesIn lined).map leafText) = "the new logo" := by
    rw [leavesIn_lined]
    decide
  obtain ⟨n, alt, hn, halt, heq, -, hflat, -⟩ := alt_flattened hshaped
  rw [htext] at heq
  subst heq
  exact ⟨hshaped, n, hn, halt, hflat hnone⟩

/-- An image with a hard line break in its description. -/
def broken : Fields := [("type", .str "image"), ("attrs", .dict [("url", .str "logo.png")]),
  ("children", .list [token "text" [("raw", .str "one")], token "linebreak" [],
    token "text" [("raw", .str "two")]])]

theorem leavesIn_broken : leavesIn broken = [[("type", .str "text"), ("raw", .str "one")],
    [("type", .str "linebreak")], [("type", .str "text"), ("raw", .str "two")]] := by
  simp [leavesIn, leavesEach, leaves, broken, token, tokensIn, Fields.get?, Fields.has,
    List.lookup_cons]

/-- **The words on the two sides of a hard line break run together.** -/
theorem hard_break_joins_words : Shaped (.dict broken) ∧
    (∀ leaf ∈ leavesIn broken, isHardBreak leaf = true → rawText leaf = "") ∧
    ∃ n, imageNode broken = .ok n ∧ alt? n = some (.str "onetwo") ∧
      ¬ Flattened isBreak (leavesIn broken) "onetwo" ∧ Text.words "onetwo" = ["onetwo"] ∧
      ((leavesIn broken).splitOnP isBreak).flatMap (Text.words <| lineText ·) = ["one", "two"] := by
  have hshaped : Shaped (.dict broken) := by
    refine .branch rfl rfl (List.forall_mem_cons.2 ⟨.leaf rfl rfl, ?_⟩)
    exact forall_mem_pair (.leaf rfl rfl) (.leaf rfl rfl)
  obtain ⟨n, hn, halt⟩ := exists_alt hshaped
  have hlines : ((leavesIn broken).splitOnP isBreak).flatMap (Text.words <| lineText ·) =
      ["one", "two"] := by
    rw [leavesIn_broken]
    decide
  have hwords : Text.words "onetwo" = ["onetwo"] := by decide
  have htext : String.join ((leavesIn broken).map leafText) = "onetwo" := by
    rw [leavesIn_broken]
    decide
  have hbare : ∀ leaf ∈ leavesIn broken, isHardBreak leaf = true → rawText leaf = "" := by
    rw [leavesIn_broken]
    decide
  rw [htext] at halt
  -- A flattening would have the two words.
  have hflat : ¬ Flattened isBreak (leavesIn broken) "onetwo" := fun h => by
    have heq := h.words
    rw [hlines, hwords] at heq
    exact absurd heq (by decide)
  exact ⟨hshaped, hbare, n, hn, halt, hflat, hwords, hlines⟩

end Image

end Bulletin.Markdown.Handed
