import Bulletin.Batch
import Bulletin.Proofs.Convert.Source

/-! # The steps of a batch

What the steps of a batch do to a workspace, up to the records that they report: the sources are
found by their suffixes, the directory for the pages is made, and each source is converted by itself.
A batch with one worker converts its sources one after the other (`Converts`).

* `listed_eq_ok`: the sources in a directory.
* `prepare_eq`: the preparation of a batch.
* `convertSource_eq`: the conversion of one source.
* `converts_of_convertEach`: a batch that is not ended by a failure converts all its sources.
* `HasSourceSuffix.child`: no source has the name of a page. -/

namespace Bulletin.Proofs.Batch

open Bulletin.Batch
open Convert.Parse Convert.Source Runs

variable {plan : Plan} {d p : Path} {ps : List Path} {r : Result} {rs : List Result}
  {report : Report} {f : Failure} {w w₁ w' : Workspace}

/-! ### Names of sources and of pages -/

/-- A path with the suffix of a Markdown file. -/
def HasSourceSuffix (p : Path) : Prop := hasSourceSuffix p = true

theorem suffixOf_bbcode (stem : String) : Path.suffixOf (stem ++ ".bbcode") = [] ∨
    Path.suffixOf (stem ++ ".bbcode") = ".bbcode".toList := by
  have hafter : (((stem ++ ".bbcode").toList.reverse.takeWhile (· ≠ '.')).reverse) =
      "bbcode".toList := by
    rw [String.toList_append, List.reverse_append]
    rfl
  unfold Path.suffixOf
  dsimp only
  rw [hafter]
  split_ifs
  · exact .inl rfl
  · exact .inr rfl

theorem bbcode_ne_up (stem : String) : stem ++ ".bbcode" ≠ ".." := by
  intro h
  have hlast := congrArg (fun s : String => s.toList.getLast?) h
  simp [String.toList_append] at hlast

theorem name_child (d : Path) (name : String) : (d.child name).name = name := by
  rw [Path.name, Path.child]
  simp

/-- **A path with the suffix of a source has a name**, which is not that of a page. -/
theorem HasSourceSuffix.child (h : HasSourceSuffix p) :
    ∃ (d : Path) (name : String), p = d.child name ∧ name ≠ ".." ∧
      ∀ stem : String, name ≠ stem ++ ".bbcode" := by
  have hnone : sourceSuffixes.contains (Text.lower "") = false := by decide
  have hpage : sourceSuffixes.contains (Text.lower ".bbcode") = false := by decide
  have hname : ∀ name, p.name = name → sourceSuffixes.contains
      (Text.lower (.ofList (Path.suffixOf name))) = true := fun name hn => hn ▸ h
  rcases List.eq_nil_or_concat p.names with hnil | ⟨names, name, hp⟩
  · have hempty := hname "" (by rw [Path.name, hnil]; rfl)
    rw [show String.ofList (Path.suffixOf "") = "" from rfl, hnone] at hempty
    cases hempty
  · have hchild : p = Path.child { p with names := names } name := by
      rw [Path.child, ← List.concat_eq_append, ← hp]
    have hlast : p.name = name := by rw [hchild, name_child]
    refine ⟨_, name, hchild, ?_, fun stem => ?_⟩
    · rintro rfl
      have hup := hname ".." hlast
      rw [show String.ofList (Path.suffixOf "..") = "" from rfl, hnone] at hup
      cases hup
    · rintro rfl
      have hstem := hname _ hlast
      rcases suffixOf_bbcode stem with hs | hs
      · rw [hs, show String.ofList [] = "" from rfl, hnone] at hstem
        cases hstem
      · rw [hs, String.ofList_toList, hpage] at hstem
        cases hstem

/-! ### The sources -/

/-- Whether a path leads to a file with the suffix of a source. -/
def isSource (w : Workspace) (p : Path) : Bool := isFileAt w p && hasSourceSuffix p

/-- What is picked from a row of paths, or why it cannot be told what they lead to. -/
def picked (w : Workspace) : List Path → Except Failure (List Path)
  | [] => .ok []
  | p :: rest => do
    let e ← seen w p
    let sources ← picked w rest
    return if isFile e && hasSourceSuffix p then p :: sources else sources

theorem gives_pickSources (w : Workspace) : ∀ (ps : List Path) (log : List Record),
    Gives (pickSources ps) { w with log := log } (picked w ps)
  | [], log => gives_pure [] _
  | p :: rest, log => by
    rw [picked]
    refine gives_isFile_bind fun e log => ?_
    by_cases hsource : (isFile e && hasSourceSuffix p) = true
    · simp only [if_pos hsource]
      exact (gives_pickSources w rest log).bind fun sources _ _ => gives_pure _ _
    · have hskip : (picked w rest >>= fun sources => pure sources) = picked w rest := by
        cases picked w rest <;> rfl
      simp only [if_neg hsource]
      rw [hskip]
      obtain ⟨log', hreport⟩ := gives_report .debug .conversion s!"Skipping {p}"
        { w with log := log }
      rw [Gives, bind_ok hreport]
      exact gives_pickSources w rest log'

/-- **Sources are picked** if it can be told what all paths lead to. -/
theorem picked_eq_ok : ∀ {ps sources : List Path}, picked w ps = .ok sources ↔
    (∀ p ∈ ps, ∃ e, w.store.look? w.here p = .ok e) ∧ sources = ps.filter (isSource w)
  | [], sources => by simp [picked, eq_comm]
  | p :: rest, sources => by
    rw [picked, except_bind_eq_ok, List.forall_mem_cons]
    simp only [except_bind_eq_ok, picked_eq_ok, seen_eq_ok]
    constructor
    · rintro ⟨e, he, found, ⟨hall, rfl⟩, h⟩
      refine ⟨⟨⟨e, he⟩, hall⟩, (Except.ok.inj h).symm.trans ?_⟩
      rw [List.filter_cons, isSource, isFileAt, he]
    · rintro ⟨⟨⟨e, he⟩, hall⟩, rfl⟩
      refine ⟨e, he, _, ⟨hall, rfl⟩, ?_⟩
      rw [List.filter_cons, isSource, isFileAt, he]
      rfl

/-- **What a directory is a source of**: its sources, or why there are none to be found. -/
def listed (w : Workspace) (d : Path) : Except Failure (List Path) := do
  match ← seen w d with
  | none => .error (.fileNotFound d.toString)
  | some (.file _) => .error (.notDirectory d.toString)
  | some .directory =>
    let names ← (w.store.namesAt w.here d).mapError fun fault => .system fault d.toString
    picked w ((sorted names).map d.child)

/-- **Looking for sources changes nothing.** -/
theorem gives_findSources (d : Path) (w : Workspace) (log : List Record) :
    Gives (findSources d) { w with log := log } (listed w d) := by
  refine (gives_look d { w with log := log }).bind fun e log _ => ?_
  cases e with
  | none => exact gives_throw _ _
  | some entry =>
    cases entry with
    | file bytes => exact gives_throw _ _
    | directory =>
      exact (gives_names d { w with log := log }).bind fun names log' _ =>
        gives_pickSources w _ log'

theorem sorted_perm (names : List String) : (sorted names).Perm names := List.mergeSort_perm _ _

theorem pairwise_sorted (names : List String) : (sorted names).Pairwise (· ≤ ·) := by
  have htrans : ∀ a b c : String, decide (a ≤ b) = true → decide (b ≤ c) = true →
      decide (a ≤ c) = true := by
    intro a b c hab hbc
    simp only [decide_eq_true_eq] at hab hbc ⊢
    exact String.le_trans hab hbc
  have htotal : ∀ a b : String, (decide (a ≤ b) || decide (b ≤ a)) = true := by
    intro a b
    simp only [Bool.or_eq_true, decide_eq_true_eq]
    exact String.le_total a b
  exact (List.pairwise_mergeSort htrans htotal _).imp fun h => of_decide_eq_true h

theorem findSources_fst (d : Path) (w : Workspace) : (findSources d w).1 = listed w d :=
  (gives_findSources d w w.log).fst

/-- **The sources in a directory** are the files with the suffix of one, in the order of their
names. -/
theorem listed_eq_ok {sources : List Path} : listed w d = .ok sources ↔
    w.store.look? w.here d = .ok (some .directory) ∧ ∃ names,
      w.store.namesAt w.here d = .ok names ∧
      (∀ name ∈ names, ∃ e, w.store.look? w.here (d.child name) = .ok e) ∧
      sources = ((sorted names).map d.child).filter (isSource w) := by
  rw [listed, except_bind_eq_ok]
  constructor
  · rintro ⟨e, he, h⟩
    have hlook := except_mapError_eq_ok.1 he
    cases e with
    | none => cases h
    | some entry =>
      cases entry with
      | file bytes => cases h
      | directory =>
        obtain ⟨names, hnames, h⟩ := except_bind_eq_ok.1 h
        obtain ⟨hall, hsources⟩ := picked_eq_ok.1 h
        refine ⟨hlook, names, except_mapError_eq_ok.1 hnames, fun name hname => ?_, hsources⟩
        exact hall _ (List.mem_map_of_mem ((sorted_perm names).mem_iff.2 hname))
  · rintro ⟨hlook, names, hnames, hall, hsources⟩
    refine ⟨_, except_mapError_eq_ok.2 hlook, except_bind_eq_ok.2
      ⟨names, except_mapError_eq_ok.2 hnames, picked_eq_ok.2 ⟨?_, hsources⟩⟩⟩
    intro p hp
    obtain ⟨name, hname, rfl⟩ := List.mem_map.1 hp
    exact hall name ((sorted_perm names).mem_iff.1 hname)

section Sources
variable {sources : List Path} (h : (findSources d w).1 = .ok sources)
include h

theorem listed_of_findSources : listed w d = .ok sources := by
  rwa [findSources_fst] at h

/-- **The sources are in the order of their names.** -/
theorem pairwise_sources : sources.Pairwise fun p q => p.name ≤ q.name := by
  obtain ⟨-, names, -, -, rfl⟩ := listed_eq_ok.1 (listed_of_findSources h)
  refine List.Pairwise.filter _ (List.pairwise_map.2 ?_)
  exact (pairwise_sorted names).imp fun h => by rwa [name_child, name_child]

/-- **A source is a file with the suffix of one.** -/
theorem source_of_mem (hp : p ∈ sources) :
    HasSourceSuffix p ∧ ∃ bytes, w.store.Holds w.here p bytes := by
  obtain ⟨-, names, -, -, rfl⟩ := listed_eq_ok.1 (listed_of_findSources h)
  obtain ⟨hfile, hsuffix⟩ := Bool.and_eq_true_iff.1 (List.mem_filter.1 hp).2
  exact ⟨hsuffix, isFileAt_iff.1 hfile⟩

end Sources

/-! ### The preparation -/

theorem ensureDirectory_eq (d : Path) (w : Workspace) : Files.ensureDirectory d w =
    match w.store.make w.here d with
    | (store, none) => (.ok d, { w with store := store })
    | (store, some _) => (.error (.outputDirectory d.toString), { w with store := store }) := by
  rw [Files.ensureDirectory, get_bind]
  rcases w.store.make w.here d with ⟨store, _ | fault⟩ <;> rfl

section Prepare
variable {sources : List Path} {store : Store} (hw : 1 ≤ plan.workers)
  (hfind : (findSources (.ofString plan.input) w).1 = .ok sources)
include hw hfind

/-- **The preparation of a batch** finds the sources and makes the directory for their pages. -/
theorem prepare_eq (hs : w.store.make w.here plan.output = (store, none)) :
    ∃ log, prepare plan w = (.ok (sources, plan.output), { w with store := store, log := log }) := by
  obtain ⟨log, hfound⟩ := gives_findSources (.ofString plan.input) w w.log
  rw [listed_of_findSources hfind] at hfound
  have hmake := ensureDirectory_eq plan.output { w with log := log }
  dsimp only at hmake
  rw [hs] at hmake
  unfold prepare
  dsimp only
  rw [if_neg (by omega)]
  exact ⟨_, (bind_ok hfound).trans ((bind_ok hmake).trans rfl)⟩

theorem prepare_error {fault : FileFault} (hs : w.store.make w.here plan.output = (store, some fault)) :
    ∃ log, prepare plan w = (.error (.outputDirectory plan.output.toString),
      { w with store := store, log := log }) := by
  obtain ⟨log, hfound⟩ := gives_findSources (.ofString plan.input) w w.log
  rw [listed_of_findSources hfind] at hfound
  have hmake := ensureDirectory_eq plan.output { w with log := log }
  dsimp only at hmake
  rw [hs] at hmake
  unfold prepare
  dsimp only
  rw [if_neg (by omega)]
  exact ⟨log, (bind_ok hfound).trans (bind_error hmake)⟩

end Prepare

theorem prepare_of_unfound (hw : 1 ≤ plan.workers)
    (hfind : (findSources (.ofString plan.input) w).1 = .error f) (log : List Record) :
    ∃ log', prepare plan { w with log := log } = (.error f, { w with log := log' }) := by
  obtain ⟨log', hfound⟩ := gives_findSources (.ofString plan.input) w log
  rw [← findSources_fst, hfind] at hfound
  unfold prepare
  dsimp only
  rw [if_neg (by omega)]
  exact ⟨log', bind_error hfound⟩

theorem sources_of_prepare (h : prepare plan w = (.ok (ps, d), w')) :
    (findSources (.ofString plan.input) w).1 = .ok ps := by
  unfold prepare at h
  dsimp only at h
  split_ifs at h
  · obtain ⟨u, w₁, hthrow, -⟩ := bind_eq_ok.1 h
    cases hthrow
  · obtain ⟨found, w₁, hfound, h⟩ := bind_eq_ok.1 h
    obtain ⟨made, w₂, hmade, h⟩ := bind_eq_ok.1 h
    obtain ⟨u, w₃, -, h⟩ := bind_eq_ok.1 h
    obtain ⟨heq, -⟩ := pure_eq_ok.1 h
    cases heq
    rw [hfound]

/-! ### One source -/

/-- **What a source is converted to** in a workspace. -/
def pageOf (plan : Plan) (w : Workspace) (source : Path) : Except Failure String :=
  (convertFile source none (.str Format.markdown.name) plan.reader plan.renderer plan.tokenizer w).1

theorem pageOf_congr (h : w.store.read w.here p = w'.store.read w'.here p) :
    pageOf plan w p = pageOf plan w' p := by
  rw [pageOf, pageOf, convertFile_none, convertFile_none]
  exact convert_congr h _

theorem read_of_pageOf {text : String} (h : pageOf plan w p = .ok text) :
    ∃ bytes, w.store.read w.here p = .ok bytes := by
  rw [pageOf, convertFile_none] at h
  exact read_of_convert h

/-- **A step of a batch** writes the page of its source. Where there is none or it cannot be written,
the step changes no file, and the failure is the result of the source if it is to be skipped. -/
theorem convertSource_eq (plan : Plan) (d p : Path) (w : Workspace) :
    ∃ log, convertSource plan d p w =
      match stored (outputPath p d) w (pageOf plan w p) with
      | .ok store => (.ok ⟨p, outputPath p d, none⟩, { w with store := store, log := log })
      | .error f =>
        (if plan.skipFailures && f.kind.isLibrary then .ok ⟨p, outputPath p d, some f⟩
          else .error f, { w with log := log }) := by
  set q := outputPath p d with hq
  obtain ⟨log, hc⟩ := convertFile_some p q plan.reader plan.renderer plan.tokenizer w
  dsimp only at hc
  rw [← pageOf] at hc
  rw [convertSource, ← hq, bind_ok (attempt_eq _ _), hc]
  cases hs : stored q w (pageOf plan w p) with
  | error f =>
    dsimp only
    split_ifs with hskip
    · exact ⟨_, rfl⟩
    · exact ⟨log, rfl⟩
  | ok store =>
    obtain ⟨text, hp, -⟩ := stored_eq_ok.1 hs
    rw [hp]
    exact ⟨log, rfl⟩

/-- A step that gives a result has written the page of its source, or it changes no file. -/
theorem convertSource_ok (h : convertSource plan d p w = (.ok r, w')) :
    r.source = p ∧ r.destination = outputPath p d ∧ w'.here = w.here ∧
      ((r.failure = none ∧ ∃ text, pageOf plan w p = .ok text ∧
          w.store.write w.here (outputPath p d) (encodeText text) = .ok w'.store) ∨
        (r.failure ≠ none ∧ w'.store = w.store)) := by
  obtain ⟨log, hstep⟩ := convertSource_eq plan d p w
  rw [h] at hstep
  cases hs : stored (outputPath p d) w (pageOf plan w p) with
  | error f =>
    rw [hs] at hstep
    dsimp only at hstep
    split_ifs at hstep
    · cases hstep
      exact ⟨rfl, rfl, rfl, .inr ⟨by simp, rfl⟩⟩
    · cases hstep
  | ok store =>
    rw [hs] at hstep
    cases hstep
    exact ⟨rfl, rfl, rfl, .inl ⟨rfl, stored_eq_ok.1 hs⟩⟩

theorem sameDirectories_of_convertSource (h : convertSource plan d p w = (.ok r, w')) :
    w.store.SameDirectories w'.store := by
  obtain ⟨-, -, -, ⟨-, text, -, hwrite⟩ | ⟨-, hstore⟩⟩ := convertSource_ok h
  · exact Store.sameDirectories_of_write hwrite
  · rw [hstore]
    exact .refl _

theorem holds_of_convertSource {q : Path} {name : String} {bytes : List UInt8}
    (h : convertSource plan d p w = (.ok r, w')) (hup : name ≠ "..")
    (hname : r.failure = none → name ≠ r.source.stem ++ ".bbcode")
    (hq : w.store.Holds w.here (q.child name) bytes) :
    w'.store.Holds w'.here (q.child name) bytes := by
  obtain ⟨hsource, -, hhere, hcases⟩ := convertSource_ok h
  rw [hhere]
  rcases hcases with ⟨hfail, text, -, hwrite⟩ | ⟨-, hstore⟩
  · rw [hsource] at hname
    exact hq.of_write_of_ne (bbcode_ne_up _) hup (hname hfail).symm hwrite
  · rwa [hstore]

/-! ### All sources -/

/-- **Sources that are converted one after the other**, each to a result. -/
inductive Converts (plan : Plan) (d : Path) :
    Workspace → List Path → List Result → Workspace → Prop
  | nil (w : Workspace) : Converts plan d w [] [] w
  | cons {w w₁ w' : Workspace} {p : Path} {ps : List Path} {r : Result} {rs : List Result} :
    convertSource plan d p w = (.ok r, w₁) → Converts plan d w₁ ps rs w' →
      Converts plan d w (p :: ps) (r :: rs) w'

theorem convertEach_cons_ok (h : convertSource plan d p w = (.ok r, w₁)) :
    convertEach plan d (p :: ps) w = ({ (convertEach plan d ps w₁).1 with
      results := r :: (convertEach plan d ps w₁).1.results }, (convertEach plan d ps w₁).2) := by
  simp only [convertEach, bind, StateT.bind, ExceptT.run, h]
  rfl

theorem convertEach_cons_error (hone : plan.workers = 1)
    (h : convertSource plan d p w = (.error f, w₁)) :
    convertEach plan d (p :: ps) w = ({ failure := some f }, w₁) := by
  simp only [convertEach, bind, StateT.bind, ExceptT.run, h, hone]
  rfl

/-- **A batch that is not ended by a failure** converts all its sources. -/
theorem converts_of_convertEach (hone : plan.workers = 1) : ∀ {ps : List Path} {w w' : Workspace}
    {report : Report}, convertEach plan d ps w = (report, w') → report.failure = none →
      Converts plan d w ps report.results w'
  | [], w, w', report, h, _ => by
    cases h
    exact .nil w
  | p :: ps, w, w', report, h, hok => by
    rcases hs : convertSource plan d p w with ⟨f | r, w₁⟩
    · rw [convertEach_cons_error hone hs] at h
      cases h
      cases hok
    · rw [convertEach_cons_ok hs] at h
      cases h
      exact .cons hs (converts_of_convertEach hone rfl hok)

theorem Converts.convertEach_eq (h : Converts plan d w ps rs w') :
    convertEach plan d ps w = ({ results := rs }, w') := by
  induction h with
  | nil w => rfl
  | cons hs _ ih => rw [convertEach_cons_ok hs, ih]

theorem run_of_prepare (h : prepare plan w = (.ok (ps, d), w₁)) :
    run plan w = convertEach plan d ps w₁ := by
  simp only [run, bind, StateT.bind, ExceptT.run, h]

theorem run_of_error (h : prepare plan w = (.error f, w₁)) :
    run plan w = ({ failure := some f }, w₁) := by
  simp only [run, bind, StateT.bind, ExceptT.run, h]
  rfl

theorem run_of_unfound (hw : 1 ≤ plan.workers)
    (hfind : (findSources (.ofString plan.input) w).1 = .error f) :
    ∃ log, run plan w = ({ failure := some f }, { w with log := log }) := by
  obtain ⟨log, hprep⟩ := prepare_of_unfound hw hfind w.log
  exact ⟨log, run_of_error hprep⟩

theorem run_of_fault {store : Store} {fault : FileFault} (hw : 1 ≤ plan.workers)
    (hfind : (findSources (.ofString plan.input) w).1 = .ok ps)
    (hmake : w.store.make w.here plan.output = (store, some fault)) :
    ∃ log, run plan w = ({ failure := some (.outputDirectory plan.output.toString) },
      { w with store := store, log := log }) := by
  obtain ⟨log, hprep⟩ := prepare_error hw hfind hmake
  exact ⟨log, run_of_error hprep⟩

/-- **Each source has a result**, in the order of the sources. -/
theorem Converts.sources (h : Converts plan d w ps rs w') : rs.map Result.source = ps := by
  induction h with
  | nil w => rfl
  | cons hs _ ih => rw [List.map_cons, (convertSource_ok hs).1, ih]

theorem Converts.destination (h : Converts plan d w ps rs w') :
    ∀ r ∈ rs, r.destination = outputPath r.source d := by
  induction h with
  | nil w => simp
  | cons hs _ ih =>
    obtain ⟨hsource, hdest, -⟩ := convertSource_ok hs
    exact List.forall_mem_cons.2 ⟨hsource ▸ hdest, ih⟩

theorem Converts.sameDirectories (h : Converts plan d w ps rs w') :
    w'.here = w.here ∧ w.store.SameDirectories w'.store := by
  induction h with
  | nil w => exact ⟨rfl, .refl _⟩
  | cons hs _ ih =>
    exact ⟨ih.1.trans (convertSource_ok hs).2.2.1, (sameDirectories_of_convertSource hs).trans ih.2⟩

/-- **A file that has not the name of a page that is written** holds after the batch what it has
held. -/
theorem Converts.holds (h : Converts plan d w ps rs w') {q : Path} {name : String}
    {bytes : List UInt8} (hup : name ≠ "..")
    (hname : ∀ r ∈ rs, r.failure = none → name ≠ r.source.stem ++ ".bbcode")
    (hq : w.store.Holds w.here (q.child name) bytes) :
    w'.store.Holds w'.here (q.child name) bytes := by
  induction h with
  | nil w => exact hq
  | cons hs _ ih =>
    rw [List.forall_mem_cons] at hname
    exact ih hname.2 (holds_of_convertSource hs hup hname.1 hq)

/-- **The page of a source is the same after the batch.** -/
theorem Converts.keeps_pageOf (h : Converts plan d w ps rs w') (hp : HasSourceSuffix p)
    {text : String} (ht : pageOf plan w p = .ok text) : pageOf plan w' p = .ok text := by
  obtain ⟨bytes, hr⟩ := read_of_pageOf ht
  obtain ⟨q, name, rfl, hup, hname⟩ := hp.child
  obtain ⟨hhere, hdirs⟩ := h.sameDirectories
  have hq := Store.holds_of_read hr
  have hq' := h.holds hup (fun r _ _ => hname r.source.stem) hq
  rw [← ht]
  refine (pageOf_congr ?_).symm
  rw [hhere] at hq' ⊢
  exact hdirs.1.read_eq hq hq'

end Bulletin.Proofs.Batch
