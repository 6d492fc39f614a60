import Bulletin.Command.Run
import Bulletin.Proofs.Batch.Steps
import Bulletin.Proofs.Mdast.Faults
import Mathlib

/-! # Failures in a batch

Whether a source of a batch can be converted is settled when the batch starts: no page takes the
place of a source or of a directory, so what the sources before it have come to makes no difference.
A batch that is to end at a failure writes the pages of the sources before the first that fails, in
order, and has their results; one that skips failures has a result for each source, and writes the
pages of those that do not fail as if the others were not there.

* `Kept.conversion`: what a source comes to does not change while a batch runs.
* `convertEach_append`: what a batch does up to a source.
* `batch_failures`: what a batch does when sources fail. -/

namespace Bulletin.Proofs.Batch

open Bulletin.Batch
open Convert.Source Runs

variable {plan : Plan} {p : Path} {ps : List Path} {f : Failure} {text : String}
  {start w w' : Workspace}

/-! ### What a source comes to -/

/-- **What the conversion of a source to its destination comes to**: its page, or a failure. -/
def conversion (plan : Plan) (w : Workspace) (p : Path) : Except Failure String :=
  (convertFile p (some (outputPath p plan.output)) (.str Format.markdown.name) plan.reader
    plan.renderer plan.tokenizer w).1

/-- The result of a source in a batch. -/
def resultAt (plan : Plan) (w : Workspace) (p : Path) : Result :=
  ⟨p, outputPath p plan.output, Mdast.fault? (conversion plan w p)⟩

theorem conversion_eq (plan : Plan) (w : Workspace) (p : Path) : conversion plan w p =
    match stored (outputPath p plan.output) w (pageOf plan w p) with
    | .error e => .error e
    | .ok _ => pageOf plan w p := by
  obtain ⟨log, h⟩ := convertFile_some p (outputPath p plan.output) plan.reader plan.renderer
    plan.tokenizer w
  dsimp only at h
  rw [← pageOf] at h
  rw [conversion, h]
  cases stored (outputPath p plan.output) w (pageOf plan w p) with
  | error e => rfl
  | ok store => rfl

theorem conversion_of_page_error (h : pageOf plan w p = .error f) :
    conversion plan w p = .error f := by
  rw [conversion_eq, h]
  rfl

/-- A source with a page comes to its page if it can be written, and to the failure to write it
otherwise. -/
theorem conversion_of_page_ok (h : pageOf plan w p = .ok text) :
    (w.store.Writable w.here (outputPath p plan.output) → conversion plan w p = .ok text) ∧
    (¬ w.store.Writable w.here (outputPath p plan.output) →
      conversion plan w p = .error (.outputWrite (outputPath p plan.output).toString)) := by
  rw [conversion_eq, h, stored_ok]
  refine ⟨fun hw => ?_, fun hw => ?_⟩
  · obtain ⟨store, hstore⟩ := hw.write (bbcode_ne_up p.stem) (encodeText text)
    rw [← outputPath] at hstore
    rw [hstore]
    rfl
  · cases hstore : w.store.write w.here (outputPath p plan.output) (encodeText text) with
    | error fault => rfl
    | ok store => exact absurd (Store.writable_of_write hstore) hw

theorem conversion_eq_ok : conversion plan w p = .ok text ↔
    pageOf plan w p = .ok text ∧ w.store.Writable w.here (outputPath p plan.output) := by
  constructor
  · intro h
    cases hpage : pageOf plan w p with
    | error e =>
      rw [conversion_of_page_error hpage] at h
      cases h
    | ok t =>
      obtain ⟨hok, hno⟩ := conversion_of_page_ok hpage
      by_cases hw : w.store.Writable w.here (outputPath p plan.output)
      · rw [hok hw] at h
        cases h
        exact ⟨rfl, hw⟩
      · rw [hno hw] at h
        cases h
  · rintro ⟨hpage, hw⟩
    exact (conversion_of_page_ok hpage).1 hw

/-- **A source fails only with the library's own failures.** -/
theorem isLibrary_of_conversion (ht : WellTyped plan.tokenizer)
    (h : conversion plan w p = .error f) : f.kind.isLibrary = true := by
  cases hpage : pageOf plan w p with
  | error e =>
    rw [conversion_of_page_error hpage] at h
    cases h
    rw [pageOf, convertFile_none] at hpage
    exact isLibrary_of_convert ht hpage
  | ok text =>
    obtain ⟨hok, hno⟩ := conversion_of_page_ok hpage
    by_cases hw : w.store.Writable w.here (outputPath p plan.output)
    · rw [hok hw] at h
      cases h
    · rw [hno hw] at h
      cases h
      rfl

/-! ### What stays while a batch runs -/

/-- A Markdown file that is there, whether it may be read or not. -/
def Present (w : Workspace) (p : Path) : Prop :=
  HasSourceSuffix p ∧ ∃ bytes, w.store.Holds w.here p bytes

theorem present_of_make {sources : List Path} {d d' : Path} {store : Store}
    {fault : Option FileFault} (hfind : (findSources d w).1 = .ok sources)
    (hmake : w.store.make w.here d' = (store, fault)) :
    ∀ p ∈ sources, Present { w with store := store } p := by
  intro p hp
  obtain ⟨hsuffix, bytes, hq⟩ := source_of_mem hfind hp
  have hmade := hq.of_make d'
  rw [hmake] at hmade
  exact ⟨hsuffix, bytes, hmade⟩

/-- **What a batch keeps of a workspace**: where it works, the directories, and all files that have
not the name of a page. -/
structure Kept (w w' : Workspace) : Prop where
  here : w'.here = w.here
  directories : w.store.SameDirectories w'.store
  holds : ∀ (q : Path) (name : String) (bytes : List UInt8), name ≠ ".." →
    (∀ stem : String, name ≠ stem ++ ".bbcode") → w.store.Holds w.here (q.child name) bytes →
      w'.store.Holds w'.here (q.child name) bytes

theorem Kept.refl (w : Workspace) : Kept w w := ⟨rfl, .refl _, fun _ _ _ _ _ h => h⟩

theorem Kept.trans {w'' : Workspace} (h : Kept w w') (h' : Kept w' w'') : Kept w w'' where
  here := h'.here.trans h.here
  directories := h.directories.trans h'.directories
  holds q name bytes hup hname hq :=
    h'.holds q name bytes hup hname (h.holds q name bytes hup hname hq)

theorem kept_log (w : Workspace) (log : List Record) : Kept w { w with log := log } :=
  ⟨rfl, .refl _, fun _ _ _ _ _ h => h⟩

/-- **A page that is written keeps the rest.** -/
theorem kept_write {d : Path} {stem : String} {bytes : List UInt8} {store : Store}
    (h : w.store.write w.here (d.child (stem ++ ".bbcode")) bytes = .ok store) (log : List Record) :
    Kept w { w with store := store, log := log } where
  here := rfl
  directories := Store.sameDirectories_of_write h
  holds _ _ _ hup hname hq := hq.of_write_of_ne (bbcode_ne_up stem) hup (hname stem).symm h

theorem Kept.read_eq (hk : Kept w w') (hl : Present w p) :
    w.store.read w.here p = w'.store.read w'.here p := by
  obtain ⟨hp, bytes, hq⟩ := hl
  obtain ⟨q, name, rfl, hup, hname⟩ := hp.child
  have hq' := hk.holds q name bytes hup hname hq
  rw [hk.here] at hq' ⊢
  exact hk.directories.1.read_eq hq hq'

/-- **What a source comes to does not change** while a batch runs. -/
theorem Kept.conversion (hk : Kept w w') (hl : Present w p) :
    conversion plan w' p = conversion plan w p := by
  have hpage : pageOf plan w' p = pageOf plan w p := (pageOf_congr (hk.read_eq hl)).symm
  cases h : pageOf plan w p with
  | error e => rw [conversion_of_page_error h, conversion_of_page_error (hpage.trans h)]
  | ok text =>
    obtain ⟨hok, hno⟩ := conversion_of_page_ok h
    obtain ⟨hok', hno'⟩ := conversion_of_page_ok (hpage.trans h)
    rw [hk.here] at hok' hno'
    by_cases hw : w.store.Writable w.here (outputPath p plan.output)
    · rw [hok hw, hok' (hk.directories.writable hw)]
    · rw [hno hw, hno' fun hw' => hw (hk.directories.symm.writable hw')]

/-! ### One source -/

/-- The pages that sources come to, each with its destination. -/
def pagesOf (plan : Plan) (w : Workspace) (ps : List Path) : List (Path × String) :=
  ps.filterMap fun p => (conversion plan w p).toOption.map fun text =>
    (outputPath p plan.output, text)

/-- **A store in which pages are written** one after the other. -/
def written (here : Address) (s : Store) (pages : List (Path × String)) : Except FileFault Store :=
  pages.foldlM (fun s page => s.write here page.1 (encodeText page.2)) s

theorem convertSource_of_ok (h : conversion plan w p = .ok text) : ∃ (store : Store)
    (log : List Record), w.store.write w.here (outputPath p plan.output) (encodeText text) = .ok store ∧
      convertSource plan plan.output p w =
        (.ok ⟨p, outputPath p plan.output, none⟩, { w with store := store, log := log }) := by
  obtain ⟨hpage, hw⟩ := conversion_eq_ok.1 h
  obtain ⟨store, hstore⟩ := hw.write (bbcode_ne_up p.stem) (encodeText text)
  obtain ⟨log, hstep⟩ := convertSource_eq plan plan.output p w
  rw [← outputPath] at hstore
  rw [stored_eq_ok.2 ⟨text, hpage, hstore⟩] at hstep
  exact ⟨store, log, hstore, hstep⟩

theorem convertSource_of_error (h : conversion plan w p = .error f) : ∃ log : List Record,
    convertSource plan plan.output p w =
      (if plan.skipFailures && f.kind.isLibrary then .ok ⟨p, outputPath p plan.output, some f⟩
        else .error f, { w with log := log }) := by
  obtain ⟨log, hstep⟩ := convertSource_eq plan plan.output p w
  rw [conversion_eq] at h
  cases hs : stored (outputPath p plan.output) w (pageOf plan w p) with
  | error e =>
    rw [hs] at h hstep
    cases h
    exact ⟨log, hstep⟩
  | ok store =>
    obtain ⟨t, hpage, -⟩ := stored_eq_ok.1 hs
    rw [hs, hpage] at h
    cases h

/-- A source that does not end a batch. -/
def Passes (plan : Plan) (w : Workspace) (p : Path) : Prop :=
  plan.skipFailures = true ∨ ∃ text, conversion plan w p = .ok text

/-- **A step of a batch that goes on** gives the result of its source and writes its page, if there
is one. -/
theorem convertSource_of_passes (ht : WellTyped plan.tokenizer) (hk : Kept start w)
    (hl : Present start p) (hp : Passes plan start p) : ∃ w₁, convertSource plan plan.output p w =
        (.ok (resultAt plan start p), w₁) ∧ Kept start w₁ ∧
      written w.here w.store (pagesOf plan start [p]) = .ok w₁.store := by
  have hsame : conversion plan w p = conversion plan start p := hk.conversion hl
  rw [resultAt]
  cases hc : conversion plan start p with
  | ok text =>
    obtain ⟨store, log, hwrite, hstep⟩ := convertSource_of_ok (hsame.trans hc)
    refine ⟨_, hstep, hk.trans (kept_write hwrite log), ?_⟩
    simp [pagesOf, hc, Except.toOption, written, hwrite]
  | error f =>
    obtain ⟨log, hstep⟩ := convertSource_of_error (hsame.trans hc)
    rcases hp with hskip | ⟨text, htext⟩
    · rw [hskip, isLibrary_of_conversion ht hc] at hstep
      refine ⟨_, hstep, hk.trans (kept_log w log), ?_⟩
      simp [pagesOf, hc, Except.toOption, written]
    · rw [hc] at htext
      cases htext

/-! ### All sources -/

theorem pagesOf_cons (plan : Plan) (w : Workspace) (p : Path) (ps : List Path) :
    pagesOf plan w (p :: ps) = pagesOf plan w [p] ++ pagesOf plan w ps := by
  rw [pagesOf, ← List.singleton_append, List.filterMap_append]
  rfl

theorem written_append {here : Address} {s s' : Store} {pages more : List (Path × String)}
    (h : written here s pages = .ok s') :
    written here s (pages ++ more) = written here s' more := by
  rw [written, List.foldlM_append, ← written, h]
  rfl

/-- **What a batch does up to a source**: if no source before it ends the batch, it has their results
and has written their pages in order. -/
theorem convertEach_append (ht : WellTyped plan.tokenizer) : ∀ {ps : List Path} {w : Workspace},
    Kept start w → (∀ p ∈ ps, Present start p ∧ Passes plan start p) → ∃ w₁, Kept start w₁ ∧
      written w.here w.store (pagesOf plan start ps) = .ok w₁.store ∧
      ∀ rest, convertEach plan plan.output (ps ++ rest) w =
        ({ (convertEach plan plan.output rest w₁).1 with
            results := ps.map (resultAt plan start) ++
              (convertEach plan plan.output rest w₁).1.results },
          (convertEach plan plan.output rest w₁).2)
  | [], w, hk, _ => ⟨w, hk, rfl, fun _ => rfl⟩
  | p :: ps, w, hk, h => by
    -- what the sources come to is settled in `start`; `Kept` carries it to where the batch has come
    obtain ⟨⟨hl, hp⟩, hps⟩ := List.forall_mem_cons.1 h
    obtain ⟨w₁, hstep, hk₁, hwrite⟩ := convertSource_of_passes ht hk hl hp
    obtain ⟨w₂, hk₂, hrest, hall⟩ := convertEach_append ht hk₁ hps
    refine ⟨w₂, hk₂, ?_, fun rest => ?_⟩
    · rw [pagesOf_cons, written_append hwrite]
      rwa [hk₁.here, ← hk.here] at hrest
    · rw [List.cons_append, convertEach_cons_ok hstep, hall rest]
      rfl

/-- **A batch that no source ends** has a result for each source and writes their pages in order. -/
theorem convertEach_whole (ht : WellTyped plan.tokenizer) (hk : Kept start w)
    (h : ∀ p ∈ ps, Present start p ∧ Passes plan start p) : ∃ w',
      convertEach plan plan.output ps w = ({ results := ps.map (resultAt plan start) }, w') ∧
      Kept start w' ∧ written w.here w.store (pagesOf plan start ps) = .ok w'.store := by
  obtain ⟨w', hk', hwritten, hall⟩ := convertEach_append ht hk h
  have hend : convertEach plan plan.output [] w' = ({}, w') := rfl
  have hwhole := hall []
  rw [List.append_nil, hend, List.append_nil] at hwhole
  exact ⟨w', hwhole, hk', hwritten⟩

/-- **A batch that a source ends** has the results of the sources before it and the failure, and
has written the pages of the sources before it. -/
theorem convertEach_first {done : List Path} (hone : plan.workers = 1)
    (ht : WellTyped plan.tokenizer) (hskip : plan.skipFailures = false) (hk : Kept start w)
    (hdone : ∀ q ∈ done, Present start q ∧ Passes plan start q) (hl : Present start p)
    (hp : conversion plan start p = .error f) (rest : List Path) : ∃ w',
      convertEach plan plan.output (done ++ p :: rest) w =
        ({ results := done.map (resultAt plan start), failure := some f }, w') ∧
      written w.here w.store (pagesOf plan start done) = .ok w'.store := by
  obtain ⟨w', hk', hwritten, hall⟩ := convertEach_append ht hk hdone
  obtain ⟨log, hstep⟩ := convertSource_of_error ((hk'.conversion hl).trans hp)
  rw [hskip, Bool.false_and, if_neg Bool.false_ne_true] at hstep
  have hend : convertEach plan plan.output (p :: rest) w' =
      ({ failure := some f }, { w' with log := log }) := convertEach_cons_error hone hstep
  have hfirst := hall (p :: rest)
  rw [hend, List.append_nil] at hfirst
  exact ⟨_, hfirst, hwritten⟩

/-- Whether a source has a page that can be written. -/
def succeeds (plan : Plan) (w : Workspace) (p : Path) : Bool := (conversion plan w p).toOption.isSome

theorem pagesOf_filter (plan : Plan) (w : Workspace) (ps : List Path) :
    pagesOf plan w (ps.filter (succeeds plan w)) = pagesOf plan w ps := by
  induction ps with
  | nil => rfl
  | cons p ps ih =>
    by_cases hp : succeeds plan w p = true
    · rw [List.filter_cons_of_pos hp, pagesOf_cons, ih, ← pagesOf_cons]
    · have hnone : pagesOf plan w [p] = [] := by
        unfold succeeds at hp
        cases hc : (conversion plan w p).toOption with
        | none => simp [pagesOf, hc]
        | some t => simp [hc] at hp
      rw [List.filter_cons_of_neg hp, ih, pagesOf_cons plan w p ps, hnone, List.nil_append]

/-! ### Exit codes -/

/-- The exit code of results is no less than that of a failure among them, and is that of one of them
or zero. -/
theorem exitCodeOf_cases (rs : List Result) :
    (∀ r ∈ rs, ∀ f, r.failure = some f → f.exitCode ≤ Command.exitCodeOf rs) ∧
    (Command.exitCodeOf rs = 0 ∨
      ∃ r ∈ rs, ∃ f, r.failure = some f ∧ f.exitCode = Command.exitCodeOf rs) := by
  set codes := rs.map fun r => r.failure.elim 0 (·.exitCode) with hcodes
  have hmax : Command.exitCodeOf rs = codes.max?.getD 0 := by
    rw [Command.exitCodeOf, ← hcodes, List.foldl_max, Nat.zero_max]
  cases hm : codes.max? with
  | none =>
    have hnil : rs = [] := by
      rw [List.max?_eq_none_iff, hcodes, List.map_eq_nil_iff] at hm
      exact hm
    subst hnil
    exact ⟨by simp, .inl rfl⟩
  | some m =>
    obtain ⟨hmem, hle⟩ := List.max?_eq_some_iff.1 hm
    rw [hmax, hm, Option.getD_some]
    refine ⟨fun r hr f hf => ?_, ?_⟩
    · have hcode : f.exitCode ∈ codes := List.mem_map.2 ⟨r, hr, by rw [hf, Option.elim_some]⟩
      exact hle _ hcode
    · obtain ⟨r, hr, hcode⟩ := List.mem_map.1 hmem
      cases hf : r.failure with
      | none =>
        rw [hf, Option.elim_none] at hcode
        exact .inl hcode.symm
      | some f =>
        rw [hf, Option.elim_some] at hcode
        exact .inr ⟨r, hr, f, hf, hcode⟩

/-- **The exit code of results with failures** is the greatest of the codes of the failures. -/
theorem isGreatest_exitCodeOf {rs : List Result} (h : ∃ r ∈ rs, ∃ f, r.failure = some f) :
    IsGreatest {c | ∃ r ∈ rs, ∃ f, r.failure = some f ∧ f.exitCode = c} (Command.exitCodeOf rs) := by
  obtain ⟨hle, hcase⟩ := exitCodeOf_cases rs
  refine ⟨?_, ?_⟩
  · rcases hcase with hzero | hmem
    · obtain ⟨r, hr, f, hf⟩ := h
      have hcode := hle r hr f hf
      have hpos : 0 < f.exitCode := f.kind.exitCode_pos
      omega
    · exact hmem
  · rintro c ⟨r, hr, f, hf, rfl⟩
    exact hle r hr f hf

theorem exitCodeOf_eq_zero {rs : List Result} (h : ∀ r ∈ rs, r.failure = none) :
    Command.exitCodeOf rs = 0 := by
  rcases (exitCodeOf_cases rs).2 with hzero | ⟨r, hr, f, hf, -⟩
  · exact hzero
  · rw [h r hr] at hf
    cases hf

theorem failure_resultAt : (resultAt plan w p).failure = some f ↔ conversion plan w p = .error f := by
  rw [resultAt]
  cases conversion plan w p with
  | ok text => exact ⟨nofun, nofun⟩
  | error e =>
    exact ⟨fun h => congrArg _ (Option.some.inj h), fun h => congrArg _ (Except.error.inj h)⟩

/-- **The exit code of sources** is zero if none of them fails, and else the greatest of the codes of
their failures. -/
theorem exitCodeOf_resultAt (plan : Plan) (w : Workspace) (ps : List Path) :
    ((∀ q ∈ ps, ∃ text, conversion plan w q = .ok text) →
      Command.exitCodeOf (ps.map (resultAt plan w)) = 0) ∧
    ((∃ q ∈ ps, ∃ f, conversion plan w q = .error f) →
      IsGreatest {c | ∃ q ∈ ps, ∃ f, conversion plan w q = .error f ∧ f.exitCode = c}
        (Command.exitCodeOf (ps.map (resultAt plan w)))) := by
  constructor
  · intro hall
    refine exitCodeOf_eq_zero fun r hr => ?_
    obtain ⟨q, hq, rfl⟩ := List.mem_map.1 hr
    obtain ⟨text, ht⟩ := hall q hq
    rw [resultAt, ht]
    rfl
  · rintro ⟨q, hq, f, hf⟩
    have hsome : ∃ r ∈ ps.map (resultAt plan w), ∃ f, r.failure = some f :=
      ⟨_, List.mem_map_of_mem hq, f, failure_resultAt.2 hf⟩
    have hgreatest := isGreatest_exitCodeOf hsome
    simpa only [List.mem_map, exists_exists_and_eq_and, failure_resultAt] using hgreatest

/-! ### Whole batches -/

theorem convertDirectory_of_run {a : Command.Arguments} {s : Settings} {directory : Path}
    {rs : List Result} (around : Command.Surroundings) (hdump : a.dumpTree = false)
    (hformat : a.inputFormat ≠ Format.tree.name)
    (hrun : run (Command.planOf a s around directory) w = ({ results := rs }, w')) :
    ∃ log, Command.convertDirectory a s around directory w =
      (.ok { exitCode := Command.exitCodeOf rs, out := Command.progress around directory rs },
        { w' with log := log }) := by
  have hreport : ∃ log, Command.reportFailures rs w' = (.ok (), { w' with log := log }) := by
    unfold Command.reportFailures
    split_ifs
    · exact ⟨w'.log, rfl⟩
    · exact ⟨_, rfl⟩
  obtain ⟨log, hreport⟩ := hreport
  have hbatch : (liftM (run (Command.planOf a s around directory)) : Job Report) w =
      (.ok { results := rs }, w') := by
    rw [liftM_eq, hrun]
  unfold Command.convertDirectory
  rw [hdump, if_neg Bool.false_ne_true, if_neg hformat]
  exact ⟨log, (bind_ok hbatch).trans ((bind_ok hreport).trans rfl)⟩

/-- **What a batch does when sources fail**, with one worker. If no sources are to be found, or the
directory for the pages cannot be made, there are no results and no pages. If failures are not
skipped, the first source that fails ends the batch with its failure: the sources before it have their
results, and their pages are written in order. If failures are skipped, each source has a result, with
the failure of its conversion if it fails; the pages of those that do not fail are written as if the
others were not there, and the exit code of the command is zero or the greatest among the failures.

A source may be there and not be readable, and a page may be barred; but no file has two addresses,
so a page that is written is never another name of a source. -/
theorem batch_failures (hone : plan.workers = 1) (ht : WellTyped plan.tokenizer) :
    (∀ f, (findSources (.ofString plan.input) w).1 = .error f → ∃ log,
      run plan w = ({ failure := some f }, { w with log := log })) ∧
    ∀ sources, (findSources (.ofString plan.input) w).1 = .ok sources →
      (∀ store fault, w.store.make w.here plan.output = (store, some fault) → ∃ log,
        run plan w = ({ failure := some (.outputDirectory plan.output.toString) },
          { w with store := store, log := log })) ∧
      ∀ store, w.store.make w.here plan.output = (store, none) →
      let start : Workspace := { w with store := store }
      (sources.Pairwise fun p q => p.name ≤ q.name) ∧
      (plan.skipFailures = false →
        (∀ done p rest f, sources = done ++ p :: rest →
          (∀ q ∈ done, ∃ text, conversion plan start q = .ok text) →
          conversion plan start p = .error f → ∃ w',
            run plan w = ({ results := done.map (resultAt plan start), failure := some f }, w') ∧
            written w.here store (pagesOf plan start done) = .ok w'.store) ∧
        ((∀ q ∈ sources, ∃ text, conversion plan start q = .ok text) → ∃ w',
          run plan w = ({ results := sources.map (resultAt plan start) }, w') ∧
          written w.here store (pagesOf plan start sources) = .ok w'.store)) ∧
      (plan.skipFailures = true → ∃ w',
        run plan w = ({ results := sources.map (resultAt plan start) }, w') ∧
        written w.here store (pagesOf plan start sources) = .ok w'.store ∧
        (convertEach plan plan.output (sources.filter (succeeds plan start)) start).2.store =
          w'.store ∧
        ∀ (a : Command.Arguments) (s : Settings) (around : Command.Surroundings) (directory : Path),
          plan = Command.planOf a s around directory → a.dumpTree = false →
          a.inputFormat ≠ Format.tree.name → ∃ outcome log,
            Command.convertDirectory a s around directory w = (.ok outcome, { w' with log := log }) ∧
            ((∀ q ∈ sources, ∃ text, conversion plan start q = .ok text) → outcome.exitCode = 0) ∧
            ((∃ q ∈ sources, ∃ f, conversion plan start q = .error f) →
              IsGreatest {c | ∃ q ∈ sources, ∃ f, conversion plan start q = .error f ∧
                f.exitCode = c} outcome.exitCode)) := by
  have hworkers : 1 ≤ plan.workers := by omega
  refine ⟨fun f hfind => run_of_unfound hworkers hfind, fun sources hfind =>
    ⟨fun store fault hmake => run_of_fault hworkers hfind hmake, fun store hmake => ?_⟩⟩
  intro start
  -- the sources are found before the directory is made, and their texts are read after that
  obtain ⟨log, hprep⟩ := prepare_eq hworkers hfind hmake
  have hrun := run_of_prepare hprep
  have hk : Kept start { start with log := log } := kept_log start log
  have hpresent : ∀ q ∈ sources, Present start q := present_of_make hfind hmake
  have hwhole : (∀ q ∈ sources, Passes plan start q) → ∃ w',
      run plan w = ({ results := sources.map (resultAt plan start) }, w') ∧
      written w.here store (pagesOf plan start sources) = .ok w'.store := by
    intro hpass
    obtain ⟨w', hresults, -, hwritten⟩ :=
      convertEach_whole ht hk fun q hq => ⟨hpresent q hq, hpass q hq⟩
    exact ⟨w', hrun.trans hresults, hwritten⟩
  refine ⟨pairwise_sources hfind, fun hskip => ⟨fun done p rest f hsources hdone hp => ?_,
    fun hall => ?_⟩, fun hskip => ?_⟩
  · have hmem : ∀ q ∈ done ++ p :: rest, Present start q := hsources ▸ hpresent
    obtain ⟨w', hresults, hwritten⟩ := convertEach_first hone ht hskip hk
      (fun q hq => ⟨hmem q (List.mem_append_left _ hq), .inr (hdone q hq)⟩)
      (hmem p (by simp)) hp rest
    refine ⟨w', hrun.trans ?_, hwritten⟩
    rw [← hresults, ← hsources]
  · exact hwhole fun q hq => .inr (hall q hq)
  · obtain ⟨w', hresults, hwritten⟩ := hwhole fun q _ => .inl hskip
    refine ⟨w', hresults, hwritten, ?_, ?_⟩
    · have hsome : ∀ q ∈ sources.filter (succeeds plan start),
          Present start q ∧ Passes plan start q :=
        fun q hq => ⟨hpresent q (List.mem_filter.1 hq).1, .inl hskip⟩
      obtain ⟨w₁, hrest, -, hwritten₁⟩ := convertEach_whole ht (.refl start) hsome
      rw [pagesOf_filter, hwritten] at hwritten₁
      rw [hrest, Except.ok.inj hwritten₁]
    · intro a s around directory hplan hdump hformat
      have hcode := exitCodeOf_resultAt plan start sources
      subst hplan
      obtain ⟨log, hcommand⟩ := convertDirectory_of_run around hdump hformat hresults
      refine ⟨_, log, hcommand, ?_⟩
      dsimp only
      exact hcode

/-! ### A source that fails -/

/-- Two sources, the first of which is no text, and a directory for pages. -/
def brokenStore : Store where
  entries := [(["in"], .directory), (["in", "a.md"], .file [255]),
    (["in", "b.md"], .file [45, 45, 45]), (["out"], .directory)]

/-- A batch of these sources that skips failures. -/
def skippingPlan : Plan where
  input := "in"
  output := ⟨"", ["out"]⟩
  skipFailures := true

/-- The source that is no text. -/
def brokenSource : Path := ⟨"", ["in", "a.md"]⟩

/-- The other source. -/
def lineSource : Path := ⟨"", ["in", "b.md"]⟩

theorem findSources_brokenStore : (findSources (.ofString "in") { store := brokenStore }).1 =
    .ok [brokenSource, lineSource] := by
  have hnames : sorted ["a.md", "b.md"] = ["a.md", "b.md"] := by cbv
  rw [findSources_fst]
  refine listed_eq_ok.2 ⟨rfl, ["a.md", "b.md"], rfl, ?_, ?_⟩
  · exact List.forall_mem_cons.2 ⟨⟨_, rfl⟩, List.forall_mem_cons.2 ⟨⟨_, rfl⟩, nofun⟩⟩
  · rw [hnames]
    decide

theorem batch_failures_broken : skippingPlan.workers = 1 ∧
    WellTyped skippingPlan.tokenizer ∧ ∃ w', run skippingPlan { store := brokenStore } =
        ({ results := [⟨brokenSource, ⟨"", ["out", "a.bbcode"]⟩, some (.notUtf8 "in/a.md" .invalidStart)⟩,
          ⟨lineSource, ⟨"", ["out", "b.bbcode"]⟩, none⟩] }, w') ∧
      written [] brokenStore [(⟨"", ["out", "b.bbcode"]⟩, "[line]")] = .ok w'.store := by
  have hbrokenPage : outputPath brokenSource skippingPlan.output = ⟨"", ["out", "a.bbcode"]⟩ := by
    decide
  have hlinePage : outputPath lineSource skippingPlan.output = ⟨"", ["out", "b.bbcode"]⟩ := by
    decide
  have hbroken : conversion skippingPlan { store := brokenStore } brokenSource =
      .error (.notUtf8 "in/a.md" .invalidStart) := conversion_of_page_error (by cbv)
  have hwritable : brokenStore.Writable [] (outputPath lineSource skippingPlan.output) := by
    rw [hlinePage]
    exact ⟨["out", "b.bbcode"], rfl, rfl, by decide⟩
  have hline : conversion skippingPlan { store := brokenStore } lineSource = .ok "[line]" :=
    conversion_eq_ok.2 ⟨by cbv, hwritable⟩
  have hone : skippingPlan.workers = 1 := rfl
  have ht : WellTyped skippingPlan.tokenizer := wellTyped_own
  obtain ⟨w', hrun, hwritten, -⟩ := (((batch_failures (w := { store := brokenStore }) hone ht).2 _
    findSources_brokenStore).2 brokenStore rfl).2.2 rfl
  simp only [List.map_cons, List.map_nil, resultAt, hbroken, hline, hbrokenPage, hlinePage,
    Mdast.fault?] at hrun
  simp only [pagesOf, List.filterMap_cons, List.filterMap_nil, hbroken, hline, hlinePage,
    Except.toOption, Option.map_none, Option.map_some] at hwritten
  exact ⟨hone, ht, w', hrun, hwritten⟩

end Bulletin.Proofs.Batch
