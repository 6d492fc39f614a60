import Bulletin.Proofs.Page.Queue
import Bulletin.Proofs.Page.Tidy

/-! # Whole pages

The page of a tree whose literals hold texts is made without fail. Before the last pass it is the
body, the link definitions and the footnotes in breadth-first order (`render_breadthFirst`); after
it, it is clean, whatever the texts of the tree are (`render_clean`). -/

namespace Bulletin.Proofs.Page.Whole

open Bulletin.Page
open Bulletin.Mdast (Node)
open Bulletin.Proofs.Page.Walk Bulletin.Proofs.Page.Queue Bulletin.Proofs.Page.Tidy
open Runs (bind_ok)

variable {o : PageOptions} {ns : List Node}

/-- The footnotes of a page in the order in which they are written. -/
def notes (ns : List Node) : List Footnote := breadthFirst (footnotesMet ns)

/-- The nodes of a page that are walked outside of tables: those of the body, and then those of each
footnote. -/
def walked (ns : List Node) : List Node := ns ++ (notes ns).flatMap (·.children)

/-- The link definitions of a page in the order in which they are written. -/
def definitions (ns : List Node) : List Mdast.Definition :=
  definitionsMet ns ++ (notes ns).flatMap fun f => definitionsMet f.children

/-- **The entry of a link definition**: its identifier, and a link to its target which shows its
title, or the identifier if there is no title. -/
def definitionEntry (d : Mdast.Definition) : String :=
  let shown := if d.title.truthy then d.title.display else d.identifier.display
  "\n^" ++ d.identifier.display ++ ": " ++ "[url=" ++ d.url.display ++ "]" ++ shown ++ "[/url]"

theorem definitionLine_eq (d : Mdast.Definition) : definitionLine d = definitionEntry d := by
  have hshown : (d.title.orElse d.identifier).display =
      if d.title.truthy then d.title.display else d.identifier.display := by
    rw [Value.orElse]
    split_ifs <;> rfl
  have hmark : ": [url=" = ": " ++ "[url=" := rfl
  simp only [definitionLine, definitionEntry, hshown, hmark, String.append_assoc]

/-- The text of a page before the last pass. -/
def rawPage (o : PageOptions) (ns : List Node) : String :=
  pageText o ns ++ "\n".intercalate ((definitions ns).map definitionEntry) ++
    "\n".intercalate ((notes ns).map (noteLine o))

/-- The records of a page. -/
def records (o : PageOptions) (ns : List Node) : List Record :=
  pageLog o ns ++ (notes ns).flatMap fun f => pageLog o f.children

/-- What is captured in the body and in the first `k` footnotes. -/
def queueAfter (ns : List Node) (k : ℕ) : List Footnote :=
  footnotesMet ns ++ ((notes ns).take k).flatMap fun f => footnotesMet f.children

/-- The walk over a body and then at most `k` rounds of the loop over the footnotes. -/
def rounds (o : PageOptions) (ns : List Node) (k : ℕ) : Walk (List String) := do
  let _ ← renderChildren o ns
  footnoteLines o 0 k

theorem length_notes_le (ns : List Node) : (notes ns).length ≤ Node.sizes ns :=
  (length_breadthFirst_le _).trans (load_footnotesMet ns)

theorem footnotesMet_walked (ns : List Node) : footnotesMet (walked ns) = notes ns := by
  rw [walked, footnotesMet_append_flatMap, notes, ← breadthFirst_eq]

/-- Whether all that is shown of a page as it is are texts. -/
def AllText (ns : List Node) : Prop := FitsEach {} (walked ns)

instance (ns : List Node) : Decidable (AllText ns) := by
  unfold AllText; infer_instance

theorem fitsEach_flatMap : ∀ {l : List Footnote},
    FitsEach {} (l.flatMap (·.children)) ↔ ∀ f ∈ l, FitsEach {} f.children
  | [] => by simp [FitsEach, shownEach]
  | f :: l => by rw [List.flatMap_cons, fitsEach_append, fitsEach_flatMap, List.forall_mem_cons]

theorem allText_iff : AllText ns ↔ FitsEach {} ns ∧ ∀ f ∈ notes ns, FitsEach {} f.children := by
  rw [AllText, walked, fitsEach_append, fitsEach_flatMap]

theorem log_walked : ∀ {l : List Footnote}, (∀ f ∈ l, FitsEach {} f.children) →
    (yields o {} (l.flatMap (·.children))).log = l.flatMap fun f => pageLog o f.children
  | [], _ => by rw [List.flatMap_nil, yields]; rfl
  | f :: l, h => by
    rw [List.flatMap_cons, yields_append, append_log, log_walked fun g hg => h g (by simp [hg]),
      List.flatMap_cons, pageLog_eq (h f (by simp))]

theorem footnotes_body (log : List Record) :
    (add { log := log } (yields o {} ns)).state.footnotes.drop 0 = footnotesMet ns := by
  rw [← (yields_captured (o := o) ns).1]
  rfl

/-- The state and the result after a number of rounds. -/
theorem rounds_of_allText (h : AllText ns) (k : ℕ) (log : List Record) :
    rounds o ns k { log := log } = (.ok (((notes ns).take k).map (noteLine o)),
      add { log := log } (yields o {} (ns ++ ((notes ns).take k).flatMap (·.children)))) := by
  obtain ⟨hbody, hnotes⟩ := allText_iff.1 h
  have hloop := footnoteLines_eq (o := o) k 0 (add { log := log } (yields o {} ns))
    (place_addState _ _) (by
      rw [footnotes_body]
      exact fun f hf => hnotes f (List.mem_of_mem_take hf))
  rw [footnotes_body, add_add, ← yields_append] at hloop
  exact (bind_ok (renderChildren_of_fits (p := { log := log }) hbody)).trans hloop

theorem assemble_of_allText (h : AllText ns) (log : List Record) :
    assemble o ns { log := log } = (.ok (rawPage o ns),
      ⟨{ definitions := definitions ns, footnotes := notes ns }, log ++ records o ns⟩) := by
  obtain ⟨hb, hn⟩ := allText_iff.1 h
  have hall : (notes ns).take (Node.sizes ns) = notes ns := List.take_of_length_le (length_notes_le ns)
  have hadd : add { log := log } (yields o {} (walked ns)) =
      ⟨{ definitions := definitions ns, footnotes := notes ns }, log ++ records o ns⟩ := by
    have hd : (yields o {} (walked ns)).definitions = definitions ns := by
      rw [(yields_captured _).2, walked, definitionsMet_append_flatMap]; rfl
    have hf : (yields o {} (walked ns)).footnotes = notes ns := by
      rw [(yields_captured _).1, footnotesMet_walked]
    have hl : (yields o {} (walked ns)).log = records o ns := by
      rw [walked, yields_append, append_log, log_walked hn, ← pageLog_eq hb]; rfl
    simp [add, addState, hd, hf, hl]
  have hr := rounds_of_allText (o := o) h (Node.sizes ns) log
  rw [hall, show ns ++ (notes ns).flatMap (·.children) = walked ns from rfl, hadd] at hr
  have hentries : (definitions ns).map definitionLine = (definitions ns).map definitionEntry :=
    List.map_congr_left fun d _ => definitionLine_eq d
  have hbody : renderChildren o ns { log := log } =
      (.ok (yields o {} ns).text, add { log := log } (yields o {} ns)) :=
    renderChildren_of_fits (p := { log := log }) hb
  have hlines : footnoteLines o 0 (Node.sizes ns) (add { log := log } (yields o {} ns)) = _ :=
    (bind_ok hbody).symm.trans hr
  rw [assemble, bind_ok hbody, bind_ok hlines, rawPage, pageText_eq hb, ← hentries]
  rfl

/-- **The page of a root** is its tidied text, if all that it shows as it is are texts. -/
theorem render_of_allText (h : AllText ns) (loc : Option Mdast.Location) (log : List Record) :
    render o (.branch (.container .root) ns loc) log = (.ok (tidy (rawPage o ns)), log ++ records o ns) := by
  have ha := assemble_of_allText (o := o) h log
  cases ns with
  | nil =>
    have hb : FitsEach {} [] := (allText_iff.1 h).1
    have he : records o [] = [] ∧ rawPage o [] = "" := by
      have hn : notes [] = [] := by rw [notes, footnotesMet, metEach, List.filterMap_nil, breadthFirst]
      constructor
      · rw [records, hn, pageLog_eq hb, yields]; rfl
      · rw [rawPage, definitions, hn, pageText_eq hb, yields]; rfl
    rw [he.1, he.2, List.append_nil]
    rfl
  | cons n ns =>
    unfold render
    dsimp only
    rw [ha]; rfl

/-! ### Pages of textual trees -/

theorem allText_of_textual (h : TextualEach ns) : AllText ns :=
  allText_iff.2 ⟨h.fits, fun f hf => (textual_breadthFirst _ (textual_footnotesMet h) f hf).fits⟩

theorem rounds_eq (h : TextualEach ns) (k : ℕ) (log : List Record) :
    rounds o ns k { log := log } = (.ok (((notes ns).take k).map (noteLine o)),
      add { log := log } (yields o {} (ns ++ ((notes ns).take k).flatMap (·.children)))) :=
  rounds_of_allText (allText_of_textual h) k log

theorem assemble_eq (h : TextualEach ns) (log : List Record) :
    assemble o ns { log := log } = (.ok (rawPage o ns),
      ⟨{ definitions := definitions ns, footnotes := notes ns }, log ++ records o ns⟩) :=
  assemble_of_allText (allText_of_textual h) log

theorem render_eq (h : TextualEach ns) (loc : Option Mdast.Location) (log : List Record) :
    render o (.branch (.container .root) ns loc) log =
      (.ok (tidy (rawPage o ns)), log ++ records o ns) :=
  render_of_allText (allText_of_textual h) loc log

/-! ### Footnotes in breadth-first order -/

theorem textualEach_of_root {loc : Option Mdast.Location}
    (h : (Node.branch (.container .root) ns loc).Textual) : TextualEach ns :=
  Node.textual_branch.mp h

/-- **A page before the last pass** is its body, its link definitions and its footnotes in
breadth-first order. The loop over the footnotes makes one round for each of them: after `k` rounds
it has written the first `k`, and there is one left in the queue just if the order has more. -/
theorem render_breadthFirst (o : PageOptions) {ns : List Node} {loc : Option Mdast.Location}
    (h : (Node.branch (.container .root) ns loc).Textual) (log : List Record) :
    assemble o ns { log := log } = (.ok (rawPage o ns),
        ⟨{ definitions := definitions ns, footnotes := notes ns }, log ++ records o ns⟩) ∧
      render o (.branch (.container .root) ns loc) log =
        (.ok (tidy (rawPage o ns)), log ++ records o ns) ∧
      ∀ k, ∃ q, rounds o ns k { log := log } = (.ok (((notes ns).take k).map (noteLine o)), q) ∧
        q.state.footnotes = queueAfter ns k ∧
        (k < (queueAfter ns k).length ↔ k < (notes ns).length) := by
  have hns := textualEach_of_root h
  refine ⟨assemble_eq hns log, render_eq hns loc log, fun k => ⟨_, rounds_eq hns k log, ?_, ?_⟩⟩
  · rw [queueAfter, ← footnotesMet_append_flatMap, ← (yields_captured (o := o) _).1]
    rfl
  · exact lt_queue_iff _ k

/-- A footnote of which only the name and the children matter. -/
def note (name : String) (ns : List Node) : Node := .of (.footnoteDefinition (.str name) .null) ns

/-- Three footnotes, the third inside the first, and a fourth that is lost inside a table. -/
def nested : List Node :=
  [.container .paragraph [note "a" [.text "x", note "b" [.text "y"]]],
    .of (.table (.list [])) [note "lost" []], note "c" [.text "z"]]

theorem render_breadthFirst_nested : (Node.container .root nested).Textual ∧
    (notes nested).map (·.identifier.display) = ["a", "c", "b"] ∧
    render {} (.container .root nested) [] =
      (.ok (tidy (rawPage {} nested)), records {} nested) := by
  have h : (Node.container .root nested).Textual := by decide
  refine ⟨h, ?_, (render_breadthFirst {} h []).2.1⟩
  cbv

/-! ### Clean pages -/

/-- **Pages are clean**: a page is made and has no three line feeds in a row, none right after a
list marker and no white space around it. The last pass changes nothing on a text that it has gone
over, keeps all characters of the trimmed text but line feeds, and of the line feeds between two
other characters two at most, or none right after a marker. -/
theorem render_clean :
    (∀ (o : PageOptions) (ns : List Node) (loc : Option Mdast.Location) (log : List Record),
      (Node.branch (.container .root) ns loc).Textual →
      ∃ page after, render o (.branch (.container .root) ns loc) log = (.ok page, after) ∧
        Clean page.toList) ∧
    ∀ s : String, tidy (tidy s) = tidy s ∧
      (tidy s).toList.filter (· ≠ '\n') = (Text.strip s).toList.filter (· ≠ '\n') ∧
      ∀ (pre post : List Char) (a b : Char) (k : ℕ), a ≠ '\n' → b ≠ '\n' →
        (Text.strip s).toList = pre ++ a :: (List.replicate k '\n' ++ b :: post) →
        ∃ pre' post', (tidy s).toList = pre' ++ a ::
            (List.replicate (if marker <:+ pre ++ [a] then 0 else min k 2) '\n' ++ b :: post') ∧
          pre'.filter (· ≠ '\n') = pre.filter (· ≠ '\n') ∧
          post'.filter (· ≠ '\n') = post.filter (· ≠ '\n') := by
  refine ⟨fun o ns loc log h => ?_, fun s => ⟨?_, filter_tidy s, ?_⟩⟩
  · exact ⟨_, _, render_eq (textualEach_of_root h) loc log, clean_tidy _⟩
  · exact tidy_of_clean (clean_tidy s)
  · exact fun pre post a b k ha hb hs => tidy_gap ha hb hs

/-- Items of a list that hold markers and line feeds themselves. -/
def markers : List Node :=
  [.of (.list (.bool false) .null) [.container .listItem [.text "[*]\n\n\n\n[*", .text "]\n"]]]

theorem render_clean_markers : (Node.container .root markers).Textual ∧
    (∃ page after, render {} (.container .root markers) [] = (.ok page, after) ∧
      Clean page.toList) ∧
    (Text.strip "a\n\n\nb").toList = [] ++ 'a' :: (List.replicate 3 '\n' ++ 'b' :: []) ∧
    ∃ pre' post', (tidy "a\n\n\nb").toList = pre' ++ 'a' :: (List.replicate 2 '\n' ++ 'b' :: post') ∧
      pre'.filter (· ≠ '\n') = [] ∧ post'.filter (· ≠ '\n') = [] := by
  have h : (Node.container .root markers).Textual := by decide
  have hs : (Text.strip "a\n\n\nb").toList =
      [] ++ 'a' :: (List.replicate 3 '\n' ++ 'b' :: []) := by decide
  have hm : ¬ marker <:+ [] ++ ['a'] := by decide
  have hg := (render_clean.2 "a\n\n\nb").2.2 [] [] 'a' 'b' 3 (by decide) (by decide) hs
  rw [if_neg hm] at hg
  exact ⟨h, render_clean.1 {} markers none [] h, hs, hg⟩

end Bulletin.Proofs.Page.Whole
