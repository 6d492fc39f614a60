import Bulletin.Proofs.Convert.Parse
import Bulletin.Proofs.Markdown.Tokenize
import Bulletin.Proofs.Page.Whole
import Bulletin.Proofs.Store

/-! # Conversions of a file

The conversion of a Markdown file looks at nothing in a workspace but that file: what was reported
before and what the other files hold makes no difference to what it gives, and it changes no file. So
a conversion that is written to a file writes what the conversion alone gives.

* `convert_congr`: a conversion depends only on what reading its source gives.
* `convertFile_some`: a conversion that is written to a file, which leaves no trace if it fails
  (`Atomic`). -/

namespace Bulletin.Proofs.Convert.Source

open Bulletin.Mdast (Node)
open Parse Runs

section Convert
variable {p : Path} {reader renderer : Option Options} {tokenizer : Tokenizer} {w w' : Workspace}

/-! ### Conversions -/

/-- **A conversion looks at its source only.** -/
theorem convert_congr (h : w.store.read w.here p = w'.store.read w'.here p) (format : Value) :
    (convert (.file p) format reader renderer tokenizer w).1 =
      (convert (.file p) format reader renderer tokenizer w').1 := by
  rw [(gives_convert w _ _ _ _ _).fst, (gives_convert w' _ _ _ _ _).fst]
  unfold convertedOf
  rw [documentOf_congr w _ _ _ _ (textOf_file_congr h)]

theorem read_of_convert {format : Value} {text : String}
    (h : (convert (.file p) format reader renderer tokenizer w).1 = .ok text) :
    ∃ bytes, w.store.read w.here p = .ok bytes := by
  rw [(gives_convert w _ _ _ _ _).fst] at h
  obtain ⟨document, hdocument, -⟩ := except_bind_eq_ok.1 h
  obtain ⟨f, -, hdocument⟩ := except_bind_eq_ok.1 hdocument
  obtain ⟨o, -, hdocument⟩ := except_bind_eq_ok.1 hdocument
  obtain ⟨source, hsource, -⟩ := except_bind_eq_ok.1 hdocument
  exact read_of_textOf hsource

/-! ### Failures -/

/-- **A tokenizer whose tokens are well typed**, as far as it gives any. -/
def WellTyped (tokenizer : Tokenizer) : Prop :=
  ∀ e text tokens, tokenizer e text = .ok tokens → Markdown.Block.areTyped tokens.blocks = true

theorem wellTyped_own : WellTyped ownTokenizer := by
  rintro e text _ ⟨⟩
  exact Markdown.areTyped_tokenize e text

theorem readMarkdownWith_textual (ht : WellTyped tokenizer) (o : MarkdownOptions) (text : String) :
    (∃ (ns : List Node) (loc : Option Mdast.Location),
      (readMarkdownWith tokenizer o text).outcome.1 = .ok (.branch (.container .root) ns loc) ∧
      (Node.branch (.container .root) ns loc).Textual) ∨
    ∃ why, (readMarkdownWith tokenizer o text).outcome.1 = .error (.tokens why) := by
  have hfront : ∀ n ∈ (o.splitFront text).1, Markdown.Good n := by
    unfold MarkdownOptions.splitFront
    split_ifs
    · exact Markdown.good_front
    · simp
  unfold readMarkdownWith
  dsimp only
  cases htokens : tokenizer o.extensions (o.splitFront text).2 with
  | error why => exact .inr ⟨why, rfl⟩
  | ok tokens =>
    exact .inl ⟨_, none, rfl, Markdown.textual_document hfront (ht _ _ _ htokens)⟩

theorem documentOf_markdown (ht : WellTyped tokenizer) (w : Workspace) (input : Input)
    (reader : Option Options) :
    (∃ (ns : List Node) (loc : Option Mdast.Location),
      documentOf w input (.str Format.markdown.name) reader tokenizer =
        .ok (.branch (.container .root) ns loc) ∧
      (Node.branch (.container .root) ns loc).Textual) ∨
    ∃ e, documentOf w input (.str Format.markdown.name) reader tokenizer = .error e ∧
      e.kind.isLibrary = true := by
  have hformat : input.format (.str Format.markdown.name) = .ok .markdown := rfl
  unfold documentOf documentFrom
  rw [hformat, except_ok_bind]
  rcases forFormat_cases reader .markdown with ⟨o, ho, hf⟩ | ⟨e, he, hlib⟩
  · rw [ho, except_ok_bind]
    cases htext : textOf w input with
    | error e => exact .inr ⟨e, rfl, isLibrary_of_textOf htext⟩
    | ok text =>
      cases o with
      | tree o => cases hf
      | markdown o =>
        rcases readMarkdownWith_textual ht o text with ⟨ns, loc, hread, htextual⟩ | ⟨why, hread⟩
        · exact .inl ⟨ns, loc, hread, htextual⟩
        · exact .inr ⟨.tokens why, hread, rfl⟩
  · rw [he]
    exact .inr ⟨e, rfl, hlib⟩

theorem pageFrom_of_textual (o : PageOptions) {ns : List Node} {loc : Option Mdast.Location}
    (h : (Node.branch (.container .root) ns loc).Textual) :
    ∃ content, pageFrom o (.branch (.container .root) ns loc) = .ok content := by
  have hrender := Page.Whole.render_eq (o := o) (Page.Whole.textualEach_of_root h) loc []
  refine ⟨Page.tidy (Page.Whole.rawPage o ns), ?_⟩
  show (Page.render o (.branch (.container .root) ns loc) []).1.mapError Failure.page = _
  rw [hrender]
  rfl

/-- **The conversion of a Markdown document fails only with the library's own failures**: its options
may be refused, its text may not be found, and the tokenizer may refuse it, but what is read is always
rendered. -/
theorem isLibrary_of_convert (ht : WellTyped tokenizer) {input : Input} {f : Failure}
    (h : (convert input (.str Format.markdown.name) reader renderer tokenizer w).1 = .error f) :
    f.kind.isLibrary = true := by
  rw [(gives_convert w _ _ _ _ _).fst] at h
  unfold convertedOf at h
  rcases documentOf_markdown ht w input reader with ⟨ns, loc, hdocument, htextual⟩ | ⟨e, he, hlib⟩
  · rw [hdocument, except_ok_bind] at h
    cases hpage : rendererOptions renderer with
    | error e =>
      rw [hpage] at h
      cases h
      exact rendererOptions_error hpage
    | ok page =>
      obtain ⟨content, hcontent⟩ := pageFrom_of_textual page htextual
      rw [hpage, except_ok_bind, hcontent] at h
      cases h
  · rw [he] at h
    cases h
    exact hlib

/-! ### Conversions to a file -/

theorem convertFile_none (w : Workspace) :
    convertFile p none (.str Format.markdown.name) reader renderer tokenizer w =
      convert (.file p) (.str Format.markdown.name) reader renderer tokenizer w := by
  unfold convertFile
  rcases h : convert (.file p) (.str Format.markdown.name) reader renderer tokenizer w with
    ⟨e | text, w'⟩
  · exact bind_error h
  · exact (bind_ok h).trans rfl

theorem writeText_eq (content : String) (q : Path) (w : Workspace) : Files.writeText content q w =
    match w.store.write w.here q (encodeText content) with
    | .error _ => (.error (.outputWrite q.toString), w)
    | .ok store => (.ok (), { w with
        store := store
        log := w.log ++ [⟨.debug, .files, s!"Wrote {content.length} characters to {q}"⟩] }) := by
  rw [Files.writeText, get_bind]
  cases w.store.write w.here q (encodeText content) with
  | error fault => rfl
  | ok store => rfl

/-- The store in which a page stands at a path, or why there is none. -/
def stored (q : Path) (w : Workspace) (page : Except Failure String) : Except Failure Store := do
  (w.store.write w.here q (encodeText (← page))).mapError fun _ => .outputWrite q.toString

theorem stored_ok (q : Path) (w : Workspace) (text : String) : stored q w (.ok text) =
    (w.store.write w.here q (encodeText text)).mapError fun _ => .outputWrite q.toString := rfl

theorem stored_eq_ok {q : Path} {page : Except Failure String} {store : Store} :
    stored q w page = .ok store ↔
      ∃ text, page = .ok text ∧ w.store.write w.here q (encodeText text) = .ok store := by
  rw [stored, except_bind_eq_ok]
  exact exists_congr fun text => and_congr_right fun _ => except_mapError_eq_ok

/-! ### Tasks that leave no trace if they fail -/

/-- **A task that leaves no trace if it fails**: it gives a result and leaves a store, or it fails
and changes no file. -/
def Atomic {α : Type} (x : Job α) (w : Workspace) (r : Except Failure (α × Store)) : Prop :=
  ∃ log, x w = match r with
    | .error f => (.error f, { w with log := log })
    | .ok (b, store) => (.ok b, { w with store := store, log := log })

section Atomic
variable {α β : Type} {x : Job α} {k : α → Job β}

/-- What is done first may report if it changes no file. -/
theorem Atomic.of_gives {r : Except Failure α} {g : α → Except Failure (β × Store)}
    (hx : Gives x w r) (hk : ∀ b log, r = .ok b → Atomic (k b) { w with log := log } (g b)) :
    Atomic (x >>= k) w (r >>= g) := by
  obtain ⟨log, hx⟩ := hx
  cases r with
  | error e => exact ⟨log, bind_error hx⟩
  | ok b =>
    obtain ⟨log', hb⟩ := hk b log rfl
    refine ⟨log', (bind_ok hx).trans (hb.trans ?_)⟩
    rw [except_ok_bind]

theorem Atomic.map {r : Except Failure (α × Store)} (hx : Atomic x w r) (g : α → β) :
    Atomic (x >>= fun b => pure (g b)) w (r.map fun p => (g p.1, p.2)) := by
  obtain ⟨log, hx⟩ := hx
  cases r with
  | error e => exact ⟨log, bind_error hx⟩
  | ok p => exact ⟨log, bind_ok hx⟩

end Atomic

/-- **Writing a text** and no more than a report after it leaves its store, or fails and leaves no
trace. -/
theorem atomic_writeText {α : Type} {k : Unit → Job α} {b : α} (hk : ∀ w, Gives (k ()) w (.ok b))
    (content : String) (q : Path) (w : Workspace) : Atomic (Files.writeText content q >>= k) w
      ((stored q w (.ok content)).map fun store => (b, store)) := by
  have hwrite := writeText_eq content q w
  rw [stored_ok]
  cases hstore : w.store.write w.here q (encodeText content) with
  | error fault =>
    rw [hstore] at hwrite
    exact ⟨w.log, bind_error hwrite⟩
  | ok store =>
    rw [hstore] at hwrite
    obtain ⟨log, hb⟩ := hk _
    exact ⟨log, (bind_ok hwrite).trans hb⟩

/-- **A conversion to a file** writes what the conversion alone gives, or fails and changes no
file. -/
theorem convertFile_some (p q : Path) (reader renderer : Option Options) (tokenizer : Tokenizer)
    (w : Workspace) :
    ∃ log, convertFile p (some q) (.str Format.markdown.name) reader renderer tokenizer w =
      let page := (convertFile p none (.str Format.markdown.name) reader renderer tokenizer w).1
      match stored q w page with
      | .error e => (.error e, { w with log := log })
      | .ok store => (page, { w with store := store, log := log }) := by
  have hwrite : ∀ page log, Atomic (Files.writeText page q >>= fun _ => pure page)
      { w with log := log } ((stored q w (.ok page)).map fun store => (page, store)) :=
    fun page log => atomic_writeText (gives_pure page) page q { w with log := log }
  have hconvert := gives_convert w (.file p) (.str Format.markdown.name) reader renderer tokenizer
  obtain ⟨log, hfile⟩ := Atomic.of_gives hconvert fun page log _ => hwrite page log
  refine ⟨log, hfile.trans ?_⟩
  rw [convertFile_none, hconvert.fst]
  cases convertedOf w (.file p) (.str Format.markdown.name) reader renderer tokenizer with
  | error e => rfl
  | ok page =>
    rw [except_ok_bind]
    dsimp only
    cases stored q w (.ok page) with
    | error e => rfl
    | ok store => rfl

end Convert

end Bulletin.Proofs.Convert.Source
