import Bulletin.Proofs.Convert.Reread
import Bulletin.Proofs.Markdown.Typed

/-! # The dumped tree of a Markdown text

The tree of a Markdown text is written as JSON and the text is given back to the program: it is taken
for a document tree, it is read as the same tree with nothing but the closing record, strictly or
leniently, and so it is rendered as the same page. All that is asked of the tokenizer is that the
tokens it gives are well typed.

* `ofText_dumpTree`: the format that a dumped tree seems to have.
* `markdown_dump_agrees`: the text and its dumped tree agree. -/

namespace Bulletin.Proofs.Convert.Dump

open Bulletin.Mdast (Node)
open Bulletin.Json Json.RoundTrip Reread Runs

/-! ### The format of a dumped tree -/

theorem holds_append (part b : List Char) : ∀ a : List Char, Format.holds part (a ++ (part ++ b))
  | [] => by
    cases h : part ++ b with
    | nil => simp [Format.holds, (List.append_eq_nil_iff.1 h).1]
    | cons c r =>
      rw [List.nil_append, Format.holds, ← h, Text.startsWith_iff.2 (List.prefix_append part b)]
      rfl
  | c :: a => by simp [Format.holds, holds_append part b a]

/-- A text that opens an object and names a type soon enough is taken for a tree. -/
theorem ofText_of_type {s : String} {b : List Char} (hb : b.length ≤ 249)
    (hs : ∃ k, s.toList = '{' :: b ++ "\"type\"".toList ++ k) : Format.ofText s = .tree := by
  obtain ⟨k, hs⟩ := hs
  have ht : Text.trimStart Text.isBlank s.toList = s.toList := by
    rw [hs]
    rfl
  have hlen : ('{' :: b ++ "\"type\"".toList).length ≤ 256 := by
    rw [List.length_append, List.length_cons]
    have : "\"type\"".toList.length = 6 := rfl
    omega
  obtain ⟨k', hk⟩ : ∃ k', s.toList.take 256 = '{' :: (b ++ ("\"type\"".toList ++ k')) := by
    refine ⟨k.take (256 - ('{' :: b ++ "\"type\"".toList).length), ?_⟩
    rw [hs, List.take_append, List.take_of_length_le hlen, List.append_assoc, List.cons_append]
  have hh := holds_append "\"type\"".toList k' ('{' :: b)
  rw [List.cons_append] at hh
  simp only [Format.ofText, ht, hk, List.head?_cons, hh, decide_true, Bool.and_self, if_true]

theorem toList_writeFields_type (indent : Option Nat) (depth : Nat) (v : Value) (fields : Fields) :
    ∃ k, (writeFields indent depth (("type", v) :: fields)).toList = "\"type\"".toList ++ k := by
  have ht : (writeString "type").toList = "\"type\"".toList := by decide
  cases fields with
  | nil => exact ⟨_, by rw [toList_writeField, ht]⟩
  | cons f fields => exact ⟨_, by rw [toList_writeFields, ht]⟩

/-- **The dumped tree of a root is taken for a tree**, unless its margin is too wide. -/
theorem ofText_dumpTree {root : Node} (hn : root.IsRoot) {indent : Option Nat}
    (hi : ∀ n ∈ indent, n ≤ 248) {d : String} (hd : dumpTree root indent = .ok d) :
    Format.ofText d = .tree := by
  obtain ⟨v, hv, hd⟩ := except_bind_eq_ok.1 (except_mapError_eq_ok.1 hd)
  obtain ⟨fields, rfl⟩ := Mdast.RoundTrip.toValue_of_isRoot hn hv
  obtain ⟨k, hk⟩ := toList_writeFields_type indent 1 (.str "root") fields
  cases hd
  have hb : (lineBreak indent 1).toList.length ≤ 249 := by
    rw [toList_lineBreak]
    cases indent with
    | none => simp
    | some n =>
      have := hi n rfl
      simp [margin]
      omega
  refine ofText_of_type hb ⟨k ++ ((lineBreak indent 0).toList ++ ['}']), ?_⟩
  rw [write, toList_writeDict, hk]
  simp only [List.cons_append, List.append_assoc]

/-! ### Markdown texts and their dumped trees -/

theorem good_of_readMarkdownWith
    {tokenizer : Markdown.Extensions → String → Except String Markdown.Tokens} {o : MarkdownOptions}
    {text : String} {root : Node} {log log' : List Record}
    (ht : ∀ tokens, tokenizer o.extensions (o.splitFront text).2 = .ok tokens → tokens.isTyped)
    (h : readMarkdownWith tokenizer o text log = (.ok root, log')) :
    Markdown.Good root ∧ root.IsRoot := by
  unfold readMarkdownWith at h
  have hf : ∀ n ∈ (o.splitFront text).1, Markdown.Good n := by
    unfold MarkdownOptions.splitFront
    split_ifs
    · exact Markdown.good_front
    · simp
  generalize o.splitFront text = split at *
  dsimp only at h
  cases htokens : tokenizer o.extensions split.2 with
  | error why => rw [htokens] at h; cases h
  | ok tokens =>
    rw [htokens] at h
    obtain ⟨⟨⟩, log₁, hm, h⟩ := bind_eq_ok.1 h
    cases (pure_eq_ok.1 h).1
    exact Markdown.good_document hf (ht tokens htokens)

/-- **A Markdown text and its dumped tree give the same document and the same pages.** -/
theorem markdown_dump_agrees
    {tokenizer : Markdown.Extensions → String → Except String Markdown.Tokens} {o : MarkdownOptions}
    {text : String} {root : Node} {log log' : List Record}
    (ht : ∀ tokens, tokenizer o.extensions (o.splitFront text).2 = .ok tokens → tokens.isTyped)
    (h : readMarkdownWith tokenizer o text log = (.ok root, log')) (indent : Option Nat) :
    ∃ d, dumpTree root indent = .ok d ∧
      ((∀ n ∈ indent, n ≤ 248) → Format.detect (.text d) = .tree) ∧
      ∀ (o : TreeOptions) (log : List Record),
        readTree o d log = (.ok root, log ++ [treeRecord root]) ∧
        ∀ p : PageOptions, (do Logged.mapError .page (Page.render p (← readTree o d))) log =
          Logged.mapError .page (Page.render p root) (log ++ [treeRecord root]) := by
  obtain ⟨⟨hc, hp, -⟩, hn⟩ := good_of_readMarkdownWith ht h
  obtain ⟨d, hd, hr⟩ := readTree_dumpTree hc hp hn indent
  exact ⟨d, hd, fun hi => ofText_dumpTree hn hi hd, fun o log =>
    ⟨hr o log, fun p => bind_ok (hr o log)⟩⟩

/-- The tokens of a text with a heading, a list that starts at three and a link definition. -/
def listTokens : Markdown.Tokens where
  blocks := [.heading (.int 1) [.text (.str "A")], .blankLine,
    .list true (.int 3) [[.paragraph [.emphasis [.text (.str "b")], .text (.str " "),
      .linkReference "L" (.str "l") [.text (.str "l")]]]]]
  definitions := [⟨"L", .str "/u", .null, .str "l"⟩]

theorem markdown_dump_agrees_list : listTokens.isTyped ∧
    readMarkdownWith (fun _ _ => .ok listTokens) {} "# A\n\n3. *b* [l][]\n\n[l]: /u\n" [] =
      (.ok (listTokens.document none), listTokens.records none) ∧
    ∃ d, dumpTree (listTokens.document none) (some 2) = .ok d ∧ Format.detect (.text d) = .tree ∧
      ∀ (o : TreeOptions) (log : List Record), readTree o d log =
        (.ok (listTokens.document none), log ++ [treeRecord (listTokens.document none)]) := by
  have ht : listTokens.isTyped := by decide
  have h : readMarkdownWith (fun _ _ => .ok listTokens) {} "# A\n\n3. *b* [l][]\n\n[l]: /u\n" [] =
      (.ok (listTokens.document none), listTokens.records none) := rfl
  obtain ⟨d, hd, hi, hr⟩ := markdown_dump_agrees (by rintro _ ⟨⟩; exact ht) h (some 2)
  exact ⟨ht, h, d, hd, hi (by simp), fun o log => (hr o log).1⟩

end Bulletin.Proofs.Convert.Dump
