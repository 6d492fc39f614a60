import Bulletin.Convert
import Bulletin.Proofs.Page.Steps
import Bulletin.Proofs.Runs
import Bulletin.Proofs.Store

/-! # What a conversion gives

Reading and rendering report what they do and look at no record that was reported before. So what a
conversion gives is decided by its options and by the text of its input, and it leaves everything in
a workspace but the records as it is.

* `gives_parse`: the document of an input.
* `gives_convert`: the page of an input. -/

namespace Bulletin.Proofs.Convert.Parse

open Bulletin.Mdast (Node Fault readNode readEach readDocument readType)
open Runs

/-! ### Reports that are not looked at -/

/-- A computation whose result does not depend on the records before it. -/
def Unheeding {ε α : Type} (x : Logged ε α) : Prop := ∀ log log', (x log).1 = (x log').1

section Unheeding
variable {ε ε' α β : Type} {x : Logged ε α} {f : α → Logged ε β}

theorem unheeding_pure (a : α) : Unheeding (pure a : Logged ε α) := fun _ _ => rfl

theorem unheeding_throw (e : ε) : Unheeding (throw e : Logged ε α) := fun _ _ => rfl

theorem unheeding_lift (r : Except ε α) : Unheeding (Logged.lift r) := fun _ _ => rfl

theorem unheeding_report (level : Level) (source : Source) (message : String) :
    Unheeding (Logged.report level source message : Logged ε Unit) := fun _ _ => rfl

theorem Unheeding.mapError (h : Unheeding x) (g : ε → ε') : Unheeding (Logged.mapError g x) :=
  fun log log' => congrArg (Except.mapError g) (h log log')

theorem Unheeding.bind (hx : Unheeding x) (hf : ∀ a, Unheeding (f a)) : Unheeding (x >>= f) := by
  intro log log'
  have h := hx log log'
  rcases hr : x log with ⟨e | a, l⟩ <;> rcases hr' : x log' with ⟨e' | a', l'⟩
  all_goals rw [hr, hr'] at h; cases h
  · rw [bind_error hr, bind_error hr']
  · rw [bind_ok hr, bind_ok hr']
    exact hf a l l'

theorem Unheeding.eq_outcome (h : Unheeding x) (log : List Record) : (x log).1 = x.outcome.1 :=
  h log []

end Unheeding

/-! ### Readers and the renderer -/

theorem unheeding_readMarkdownWith (tokenizer : Tokenizer) (o : MarkdownOptions) (text : String) :
    Unheeding (readMarkdownWith tokenizer o text) := by
  unfold readMarkdownWith
  dsimp only
  cases tokenizer o.extensions (o.splitFront text).2 with
  | error why => exact unheeding_throw _
  | ok tokens => exact fun _ _ => rfl

theorem unheeding_readType (strict : Bool) (fields : Fields) :
    Unheeding (readType strict fields) := by
  have hdrop : ∀ (f : Fault) (s : String), Unheeding (if strict then throw f
      else do
        Logged.report .warning .treeReader s
        return none : Logged Fault (Option Mdast.NodeType)) := by
    intro f s
    split_ifs
    · exact unheeding_throw f
    · exact (unheeding_report _ _ _).bind fun _ => unheeding_pure none
  unfold readType
  dsimp only
  by_cases ht : (!(fields.getD "type").truthy) = true
  · rw [if_pos ht]
    exact hdrop _ _
  · rw [if_neg ht]
    split
    · exact unheeding_throw _
    · exact unheeding_throw _
    · split
      · exact unheeding_pure _
      · exact hdrop _ _

mutual

theorem unheeding_readNode (strict : Bool) (v : Value) : Unheeding (readNode strict v) := by
  cases v with
  | dict fields =>
    rw [readNode]
    refine (unheeding_readType strict fields).bind fun t => ?_
    split
    · exact unheeding_pure none
    · exact (unheeding_lift _).bind fun l => unheeding_pure _
    · refine (unheeding_lift _).bind fun b => (unheeding_lift _).bind fun items => ?_
      refine (unheeding_readEach strict items.1).bind fun children => ?_
      exact (unheeding_lift _).bind fun _ => unheeding_pure _
  | _ =>
    rw [readNode]
    · exact unheeding_throw _
    · simp
termination_by sizeOf v
decreasing_by exact items.2

theorem unheeding_readEach (strict : Bool) (vs : List Value) : Unheeding (readEach strict vs) := by
  cases vs with
  | nil =>
    rw [readEach]
    exact unheeding_pure []
  | cons v r =>
    rw [readEach]
    refine (unheeding_readNode strict v).bind fun n => ?_
    exact (unheeding_readEach strict r).bind fun ns => unheeding_pure _
termination_by sizeOf vs

end

theorem unheeding_readDocument (strict : Bool) (v : Value) : Unheeding (readDocument strict v) := by
  unfold readDocument
  split
  · split
    · refine (unheeding_readNode strict _).bind fun n => ?_
      split
      · exact unheeding_pure _
      · exact unheeding_throw _
    · exact unheeding_throw _
  · exact unheeding_throw _

/-- **Reading looks at the text only.** -/
theorem unheeding_read (o : ReaderOptions) (text : String) (tokenizer : Tokenizer) :
    Unheeding (o.read text tokenizer) := by
  cases o with
  | markdown o => exact unheeding_readMarkdownWith tokenizer o text
  | tree o =>
    refine (unheeding_lift _).bind fun v => ?_
    refine ((unheeding_readDocument _ v).mapError treeFailure).bind fun root => ?_
    exact (unheeding_report _ _ _).bind fun _ => unheeding_pure root

/-- **Rendering looks at the document only.** -/
theorem unheeding_render (o : PageOptions) (n : Node) : Unheeding (Page.render o n) := by
  intro log log'
  cases n with
  | leaf l loc => rfl
  | branch b ns loc =>
    cases ns with
    | nil => rfl
    | cons n ns =>
      exact congrArg (Except.map Page.tidy) (Page.blind.assemble (n :: ns) {} log log').1

/-! ### Tasks that only report -/

/-- **A task that gives a result** and leaves all but the records as it is. -/
def Gives {α : Type} (x : Job α) (w : Workspace) (r : Except Failure α) : Prop :=
  ∃ log, x w = (r, { w with log := log })

section Gives
variable {α β : Type} {x : Job α} {f : α → Job β} {w : Workspace} {r : Except Failure α}
  {g : α → Except Failure β}

theorem Unheeding.gives {y : Logged Failure α} (h : Unheeding y) (w : Workspace) :
    Gives (Job.ofLogged y) w y.outcome.1 :=
  ⟨(y w.log).2, Prod.ext (h.eq_outcome w.log) rfl⟩

theorem gives_lift (r : Except Failure α) (w : Workspace) :
    Gives (Job.ofLogged (Logged.lift r)) w r := ⟨w.log, rfl⟩

theorem attempt_eq (x : Job α) (w : Workspace) : Job.attempt x w = (.ok (x w).1, (x w).2) := rfl

theorem gives_pure (a : α) (w : Workspace) : Gives (pure a) w (.ok a) := ⟨w.log, rfl⟩

theorem gives_throw (e : Failure) (w : Workspace) : Gives (throw e : Job α) w (.error e) :=
  ⟨w.log, rfl⟩

theorem gives_report (level : Level) (source : Source) (message : String) (w : Workspace) :
    Gives (Job.report level source message) w (.ok ()) := ⟨_, rfl⟩

theorem gives_get {f : Workspace → Job α} (h : Gives (f w) w r) : Gives (get >>= f) w r := by
  rwa [Gives, get_bind]

/-- **A sequence gives what its parts give**, the second after any records. -/
theorem Gives.bind (hx : Gives x w r)
    (hf : ∀ a log, r = .ok a → Gives (f a) { w with log := log } (g a)) :
    Gives (x >>= f) w (r >>= g) := by
  obtain ⟨log, hx⟩ := hx
  cases r with
  | error e => exact ⟨log, bind_error hx⟩
  | ok a =>
    obtain ⟨log', ha⟩ := hf a log rfl
    exact ⟨log', (bind_ok hx).trans ha⟩

theorem Gives.fst (h : Gives x w r) : (x w).1 = r := by
  obtain ⟨log, h⟩ := h
  rw [h]

end Gives

/-! ### Looking at files -/

/-- What a look at a path shows, or why it cannot be told. -/
def seen (w : Workspace) (p : Path) : Except Failure (Option Entry) :=
  (w.store.look? w.here p).mapError fun fault => .system fault p.toString

theorem seen_eq_ok {w : Workspace} {p : Path} {e : Option Entry} :
    seen w p = .ok e ↔ w.store.look? w.here p = .ok e := except_mapError_eq_ok

theorem seen_of_fault {w : Workspace} {p : Path} {fault : FileFault}
    (h : w.store.look? w.here p = .error fault) :
    seen w p = .error (.system fault p.toString) := by
  rw [seen, h]
  rfl

theorem gives_look (p : Path) (w : Workspace) : Gives (Files.look p) w (seen w p) :=
  gives_get (gives_lift _ w)

/-- Whether an entry is a file. -/
def isFile : Option Entry → Bool
  | some (.file _) => true
  | _ => false

/-- Whether there is a file at a path, as far as it can be told. -/
def isFileAt (w : Workspace) (p : Path) : Bool :=
  match w.store.look? w.here p with
  | .ok e => isFile e
  | .error _ => false

theorem isFileAt_iff {w : Workspace} {p : Path} :
    isFileAt w p = true ↔ ∃ bytes, w.store.Holds w.here p bytes := by
  unfold isFileAt Store.Holds
  rcases w.store.look? w.here p with fault | _ | bytes | _ <;> simp [isFile]

theorem gives_isFile (p : Path) (w : Workspace) :
    Gives (Files.isFile p) w ((seen w p).map isFile) := by
  have hmap : (seen w p).map isFile = seen w p >>= fun e => .ok (isFile e) := by
    cases seen w p <;> rfl
  rw [hmap]
  refine (gives_look p w).bind fun e log _ => ?_
  cases e with
  | none => exact gives_pure false _
  | some entry => cases entry <;> exact gives_pure _ _

theorem gives_isFile_bind {α : Type} {w : Workspace} {p : Path} {f : Bool → Job α}
    {g : Option Entry → Except Failure α}
    (hf : ∀ e log, Gives (f (isFile e)) { w with log := log } (g e)) :
    Gives (Files.isFile p >>= f) w (seen w p >>= g) := by
  obtain ⟨log, h⟩ := gives_isFile p w
  cases hseen : seen w p with
  | error why =>
    rw [hseen] at h
    exact ⟨log, bind_error h⟩
  | ok e =>
    rw [hseen] at h
    obtain ⟨log', hrest⟩ := hf e log
    exact ⟨log', (bind_ok h).trans hrest⟩

theorem gives_names (p : Path) (w : Workspace) : Gives (Files.names p) w
    ((w.store.namesAt w.here p).mapError fun fault => .system fault p.toString) :=
  gives_get (gives_lift _ w)

/-! ### The text of an input -/

theorem readText_eq (p : Path) (w : Workspace) : Files.readText p w =
    match w.store.read w.here p with
    | .error .missing => (.error (.fileNotFound p.toString), w)
    | .error _ => (.error (.fileAccess p.toString), w)
    | .ok bytes => (decodeText bytes p.toString, { w with
        log := w.log ++ [⟨.debug, .files, s!"Read {bytes.length} bytes from {p}"⟩] }) := by
  rw [Files.readText, get_bind]
  cases w.store.read w.here p with
  | error fault => cases fault <;> rfl
  | ok bytes => rfl

/-- **The text of an input**, or why there is none. -/
def textOf (w : Workspace) (input : Input) : Except Failure String := (input.load w).1

theorem gives_load (input : Input) (w : Workspace) (log : List Record) :
    Gives input.load { w with log := log } (textOf w input) := by
  unfold textOf
  cases input with
  | file p =>
    rw [Gives, Input.load, readText_eq, readText_eq]
    cases w.store.read w.here p with
    | error fault => cases fault <;> exact ⟨_, rfl⟩
    | ok bytes => exact ⟨_, rfl⟩
  | _ => exact ⟨log, rfl⟩

theorem textOf_file_congr {w w' : Workspace} {p : Path}
    (h : w.store.read w.here p = w'.store.read w'.here p) :
    textOf w (.file p) = textOf w' (.file p) := by
  rw [textOf, textOf, Input.load, readText_eq, readText_eq, ← h]
  cases w.store.read w.here p with
  | error fault => cases fault <;> rfl
  | ok bytes => rfl

theorem read_of_textOf {w : Workspace} {p : Path} {text : String}
    (h : textOf w (.file p) = .ok text) : ∃ bytes, w.store.read w.here p = .ok bytes := by
  rw [textOf, Input.load, readText_eq] at h
  cases hr : w.store.read w.here p with
  | error fault => rw [hr] at h; cases fault <;> cases h
  | ok bytes => exact ⟨bytes, rfl⟩

theorem isLibrary_of_textOf {w : Workspace} {input : Input} {f : Failure}
    (h : textOf w input = .error f) : f.kind.isLibrary = true := by
  have hdecode : ∀ (bytes : List UInt8) (name : String), decodeText bytes name = .error f →
      f.kind.isLibrary = true := by
    intro bytes name hd
    unfold decodeText at hd
    split at hd
    · cases hd
    · cases hd
      rfl
  unfold textOf at h
  cases input with
  | text s => cases h
  | bytes bs => exact hdecode bs _ h
  | byteStream bs => exact hdecode bs _ h
  | textStream s => cases h
  | file p =>
    rw [Input.load, readText_eq] at h
    cases hr : w.store.read w.here p with
    | error fault =>
      rw [hr] at h
      cases fault <;> cases h <;> rfl
    | ok bytes =>
      rw [hr] at h
      exact hdecode bytes _ h
  | other v =>
    cases h
    rfl

/-! ### Documents and pages -/

/-- The format that the options of a reader are for. -/
def formatOf : ReaderOptions → Format
  | .markdown _ => .markdown
  | .tree _ => .tree

theorem forFormat_cases (given : Option Options) (format : Format) :
    (∃ o, ReaderOptions.forFormat given format = .ok o ∧ formatOf o = format) ∨
      ∃ e, ReaderOptions.forFormat given format = .error e ∧ e.kind.isLibrary = true := by
  cases format <;> cases given with
  | none => exact .inl ⟨_, rfl, rfl⟩
  | some o => cases o <;> first | exact .inl ⟨_, rfl, rfl⟩ | exact .inr ⟨_, rfl, rfl⟩

theorem rendererOptions_error {given : Option Options} {e : Failure}
    (h : rendererOptions given = .error e) : e.kind.isLibrary = true := by
  cases given with
  | none => cases h
  | some o =>
    cases o with
    | page o => cases h
    | _ => cases h; rfl

/-- The document of a text in a format, or why there is none; the options are looked at first. -/
def documentFrom (reader : Option Options) (tokenizer : Tokenizer) (f : Format)
    (text : Except Failure String) : Except Failure Node := do
  let o ← ReaderOptions.forFormat reader f
  let t ← text
  (o.read t tokenizer).outcome.1

/-- The page of a document, or why there is none. -/
def pageFrom (o : PageOptions) (document : Node) : Except Failure String :=
  (Logged.mapError Failure.page (Page.render o document)).outcome.1

section Convert
variable (w : Workspace) (input : Input) (format : Value) (reader renderer : Option Options)
  (tokenizer : Tokenizer)

/-- **The document of an input**, or why there is none. -/
def documentOf : Except Failure Node := do
  let f ← input.format format
  documentFrom reader tokenizer f (textOf w input)

/-- **The page of an input**, or why there is none. -/
def convertedOf : Except Failure String := do
  let document ← documentOf w input format reader tokenizer
  let o ← rendererOptions renderer
  pageFrom o document

theorem documentOf_congr {w' : Workspace} (h : textOf w input = textOf w' input) :
    documentOf w input format reader tokenizer = documentOf w' input format reader tokenizer := by
  unfold documentOf
  rw [h]

/-- **Parsing gives the document** of its input. -/
theorem gives_parse : Gives (parse input format reader tokenizer) w
    (documentOf w input format reader tokenizer) := by
  refine (gives_lift _ _).bind fun f log _ => ?_
  obtain ⟨log', hreport⟩ := gives_report .debug .conversion s!"Parsing input as {f.name}"
    { w with log := log }
  rw [Gives, bind_ok hreport]
  refine (gives_lift _ _).bind fun o log _ => ?_
  refine (gives_load input w log).bind fun text log _ => ?_
  exact (unheeding_read o text tokenizer).gives _

theorem gives_renderPage (o : PageOptions) (document : Node) :
    Gives (renderPage o document) w (pageFrom o document) :=
  ((unheeding_render o document).mapError _).gives w

/-- **A conversion gives the page** of its input. -/
theorem gives_convert : Gives (convert input format reader renderer tokenizer) w
    (convertedOf w input format reader renderer tokenizer) := by
  refine (gives_parse w input format reader tokenizer).bind fun document log _ => ?_
  refine (gives_lift _ _).bind fun o log _ => ?_
  exact gives_renderPage _ o document

end Convert

end Bulletin.Proofs.Convert.Parse
