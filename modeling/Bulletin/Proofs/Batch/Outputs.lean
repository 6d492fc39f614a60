import Bulletin.Proofs.Batch.Steps
import Bulletin.Proofs.Text.Utf8
import Mathlib

/-! # What a batch leaves behind

All pages of a batch go into one directory, under the stems of their sources. Two sources whose names
differ in their suffixes only have the same destination: both are converted and both have a result
without a failure, and the page of the one that is converted last is the one that stays.

* `lastAt`: the last result that has a page at a path.
* `Converts.holds_last`: the page that stands at a path.
* `batch_leaves_last`: what a batch leaves at the destination of each result. -/

namespace Bulletin.Proofs.Batch

open Bulletin.Batch
open Convert.Parse

variable {plan : Plan} {d p : Path} {ps : List Path} {r : Result} {rs : List Result}
  {report : Report} {w w' : Workspace}

/-! ### What stands at an output -/

/-- Whether a result has a page at a path. -/
def hasPage (q : Path) (r : Result) : Bool := r.failure.isNone && r.destination == q

/-- **The last of some results that has a page at a path.** -/
def lastAt (q : Path) (rs : List Result) : Option Result :=
  (rs.filter (hasPage q)).getLast?

theorem hasPage_iff {q : Path} : hasPage q r = true ↔ r.failure = none ∧ r.destination = q := by
  simp [hasPage]

theorem lastAt_cons (q : Path) (r : Result) (rs : List Result) :
    lastAt q (r :: rs) = (lastAt q rs).or (if hasPage q r then some r else none) := by
  unfold lastAt
  rw [List.filter_cons]
  split_ifs with h
  · rw [List.getLast?_cons]
    cases (rs.filter (hasPage q)).getLast? <;> rfl
  · rw [Option.or_none]

theorem lastAt_isSome {q : Path} (hr : r ∈ rs) (hq : hasPage q r = true) :
    ∃ last, lastAt q rs = some last := by
  have hmem : r ∈ rs.filter (hasPage q) := List.mem_filter.2 ⟨hr, hq⟩
  exact ⟨_, List.getLast?_eq_some_getLast (List.ne_nil_of_mem hmem)⟩

/-- A file at which no result has a page holds after the batch what it has held. -/
theorem Converts.holds_of_lastAt (h : Converts plan d w ps rs w') {stem : String} {bytes : List UInt8}
    (hl : lastAt (d.child (stem ++ ".bbcode")) rs = none)
    (hq : w.store.Holds w.here (d.child (stem ++ ".bbcode")) bytes) :
    w'.store.Holds w'.here (d.child (stem ++ ".bbcode")) bytes := by
  refine h.holds (bbcode_ne_up stem) (fun r hmem hfail heq => ?_) hq
  have hdest : r.destination = d.child (stem ++ ".bbcode") := by
    rw [h.destination r hmem, outputPath, heq]
  obtain ⟨last, hlast⟩ := lastAt_isSome hmem (hasPage_iff.2 ⟨hfail, hdest⟩)
  rw [hl] at hlast
  cases hlast

/-- **The page that stands at an output** is that of the last result that has one there. -/
theorem Converts.holds_last (h : Converts plan d w ps rs w') (hps : ∀ p ∈ ps, HasSourceSuffix p)
    {q : Path} {last : Result} (hl : lastAt q rs = some last) : ∃ text,
      pageOf plan w' last.source = .ok text ∧ w'.store.Holds w'.here q (encodeText text) := by
  induction h with
  | nil w => cases hl
  | @cons w w₁ w' p ps r rs hs hrest ih =>
    rw [List.forall_mem_cons] at hps
    rw [lastAt_cons, Option.or_eq_some_iff] at hl
    rcases hl with hl | ⟨hnone, hr⟩
    · exact ih hps.2 hl
    · split_ifs at hr with hpage
      obtain rfl := Option.some.inj hr
      obtain ⟨hfail, hq⟩ := hasPage_iff.1 hpage
      obtain ⟨hsource, hdest, hhere, hcases⟩ := convertSource_ok hs
      rcases hcases with ⟨-, text, ht, hwrite⟩ | ⟨hfailed, -⟩
      · rw [hdest, outputPath] at hq
        subst hq
        refine ⟨text, ?_, hrest.holds_of_lastAt hnone ?_⟩
        · rw [hsource]
          exact (Converts.cons hs hrest).keeps_pageOf hps.1 ht
        · rw [hhere]
          exact Store.holds_of_write hwrite
      · exact absurd hfail hfailed

theorem Converts.exists_pageOf (h : Converts plan d w ps rs w') (hps : ∀ p ∈ ps, HasSourceSuffix p) :
    ∀ r ∈ rs, r.failure = none → ∃ text, pageOf plan w' r.source = .ok text := by
  induction h with
  | nil w => simp
  | @cons w w₁ w' p ps r rs hs hrest ih =>
    rw [List.forall_mem_cons] at hps
    refine List.forall_mem_cons.2 ⟨fun hfail => ?_, ih hps.2⟩
    obtain ⟨hsource, -, -, hcases⟩ := convertSource_ok hs
    rcases hcases with ⟨-, text, ht, -⟩ | ⟨hfailed, -⟩
    · exact ⟨text, by rw [hsource]; exact (Converts.cons hs hrest).keeps_pageOf hps.1 ht⟩
    · exact absurd hfail hfailed

/-! ### Whole batches -/

theorem encodeText_injective {s t : String} (h : encodeText s = encodeText t) : s = t :=
  String.toList_inj.1 (Text.encode_injective h)

/-- **What a batch leaves behind**: when a batch with one worker is not ended by a failure, each
source in its directory has a result, and each result without a failure has a page, but the file at its
destination holds the page of the last result without a failure that has this destination. So the file
holds the result's own page exactly if that last one has the same page. -/
theorem batch_leaves_last (hone : plan.workers = 1) (hrun : run plan w = (report, w'))
    (hok : report.failure = none) :
    (findSources (.ofString plan.input) w).1 = .ok (report.results.map Result.source) ∧
    ∀ r ∈ report.results, r.failure = none →
      ∃ (text : String) (last : Result) (lastText : String),
        pageOf plan w' r.source = .ok text ∧
        lastAt r.destination report.results = some last ∧
        pageOf plan w' last.source = .ok lastText ∧
        w'.store.Holds w'.here r.destination (encodeText lastText) ∧
        (w'.store.Holds w'.here r.destination (encodeText text) ↔ lastText = text) := by
  rcases hprep : prepare plan w with ⟨f | ⟨sources, d⟩, w₁⟩
  · rw [run_of_error hprep] at hrun
    cases hrun
    cases hok
  · rw [run_of_prepare hprep] at hrun
    have hfind := sources_of_prepare hprep
    have hsuffix : ∀ p ∈ sources, HasSourceSuffix p := fun p hp => (source_of_mem hfind hp).1
    have hall := converts_of_convertEach hone hrun hok
    refine ⟨hall.sources.symm ▸ hfind, fun r hr hfail => ?_⟩
    obtain ⟨text, ht⟩ := hall.exists_pageOf hsuffix r hr hfail
    obtain ⟨last, hlast⟩ := lastAt_isSome hr (hasPage_iff.2 ⟨hfail, rfl⟩)
    obtain ⟨lastText, hlt, hholds⟩ := hall.holds_last hsuffix hlast
    refine ⟨text, last, lastText, ht, hlast, hlt, hholds, ?_⟩
    constructor
    · intro h
      exact encodeText_injective (hholds.unique h)
    · rintro rfl
      exact hholds

/-! ### Two sources with one destination -/

/-- Two sources with one stem, the first a line and the second empty, and a directory for pages with
some files in it. -/
def twins (pages : List (Address × Entry)) : Store where
  entries := [(["in"], .directory), (["in", "a.markdown"], .file [45, 45, 45]),
    (["in", "a.md"], .file []), (["out"], .directory)] ++ pages

/-- A batch of these sources. -/
def twinPlan : Plan where
  input := "in"
  output := ⟨"", ["out"]⟩

/-- The first source. -/
def lineTwin : Path := ⟨"", ["in", "a.markdown"]⟩

/-- The second source. -/
def emptyTwin : Path := ⟨"", ["in", "a.md"]⟩

/-- The destination of both. -/
def twinPage : Path := ⟨"", ["out", "a.bbcode"]⟩

theorem pageOf_lineTwin (pages : List (Address × Entry)) (log : List Record) :
    pageOf twinPlan { store := twins pages, log := log } lineTwin = .ok "[line]" := by
  have h : pageOf twinPlan { store := twins [] } lineTwin = .ok "[line]" := by cbv
  rw [← h]
  exact pageOf_congr rfl

theorem pageOf_emptyTwin (pages : List (Address × Entry)) (log : List Record) :
    pageOf twinPlan { store := twins pages, log := log } emptyTwin = .ok "" := by
  have h : pageOf twinPlan { store := twins [] } emptyTwin = .ok "" := by cbv
  rw [← h]
  exact pageOf_congr rfl

theorem findSources_twins : (findSources (.ofString "in") { store := twins [] }).1 =
    .ok [lineTwin, emptyTwin] := by
  have hnames : sorted ["a.markdown", "a.md"] = ["a.markdown", "a.md"] := by cbv
  rw [findSources_fst]
  refine listed_eq_ok.2 ⟨rfl, ["a.markdown", "a.md"], rfl, ?_, ?_⟩
  · exact List.forall_mem_cons.2 ⟨⟨_, rfl⟩, List.forall_mem_cons.2 ⟨⟨_, rfl⟩, nofun⟩⟩
  · rw [hnames]
    decide

theorem run_twins : ∃ log, run twinPlan { store := twins [] } =
    ({ results := [⟨lineTwin, twinPage, none⟩, ⟨emptyTwin, twinPage, none⟩] },
      { store := twins [(["out", "a.bbcode"], .file [])], log := log }) := by
  obtain ⟨log, hprep⟩ := prepare_eq (show 1 ≤ twinPlan.workers by decide) findSources_twins rfl
  obtain ⟨log₁, h₁⟩ := convertSource_eq twinPlan twinPlan.output lineTwin
    { store := twins [], log := log }
  rw [pageOf_lineTwin] at h₁
  obtain ⟨log₂, h₂⟩ := convertSource_eq twinPlan twinPlan.output emptyTwin
    { store := twins [(["out", "a.bbcode"], .file (encodeText "[line]"))], log := log₁ }
  rw [pageOf_emptyTwin] at h₂
  have hall := Converts.cons h₁ (.cons h₂ (.nil _))
  refine ⟨log₂, (run_of_prepare hprep).trans ?_⟩
  exact hall.convertEach_eq

/-- The result of the first source. -/
def lineResult : Result := ⟨lineTwin, twinPage, none⟩

theorem batch_leaves_last_twins : ∃ (report : Report) (w' : Workspace),
    twinPlan.workers = 1 ∧ run twinPlan { store := twins [] } = (report, w') ∧
    report.failure = none ∧ report.results.map Result.source = [lineTwin, emptyTwin] ∧
    lineResult ∈ report.results ∧ lineResult.failure = none ∧
    ∃ (last : Result) (lastText : String), lastAt twinPage report.results = some last ∧
      pageOf twinPlan w' last.source = .ok lastText ∧
      w'.store.Holds w'.here twinPage (encodeText lastText) := by
  obtain ⟨log, hrun⟩ := run_twins
  have hmem : lineResult ∈ [lineResult, ⟨emptyTwin, twinPage, none⟩] := by simp
  obtain ⟨-, hresults⟩ := batch_leaves_last rfl hrun rfl
  obtain ⟨text, last, lastText, -, hlast, hpage, hholds, -⟩ := hresults lineResult hmem rfl
  exact ⟨_, _, rfl, hrun, rfl, rfl, hmem, rfl, last, lastText, hlast, hpage, hholds⟩

/-- **The page of the first source is lost**: the source has a result without a failure and its page
is a line, but the file at its destination is empty. -/
theorem page_lost_at_twin : ∃ (report : Report) (w' : Workspace),
    run twinPlan { store := twins [] } = (report, w') ∧ report.failure = none ∧
    lineResult ∈ report.results ∧ lineResult.failure = none ∧
    pageOf twinPlan w' lineResult.source = .ok "[line]" ∧
    w'.store.Holds w'.here lineResult.destination [] ∧ encodeText "[line]" ≠ [] := by
  obtain ⟨log, hrun⟩ := run_twins
  exact ⟨_, _, hrun, rfl, by simp [lineResult], rfl, pageOf_lineTwin _ log, rfl, by decide⟩

end Bulletin.Proofs.Batch
