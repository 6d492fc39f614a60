import Bulletin.Proofs.Batch.Frame
import Bulletin.Proofs.Batch.Workers

/-! # Batches that are repeated

A batch that is done again finds what it found before: the files in its directory that are new are
pages, which are no sources, and the sources have kept their texts. So it comes to the same results,
writes the same pages in the same order, and leaves the files as they are.

* `findSources_again`: the sources in a directory after a batch.
* `get?_of_written_again`: pages that are written again change nothing.
* `batch_repeats`: what a batch may change, and what it does when it is done again. -/

namespace Bulletin.Proofs.Batch

open Bulletin.Batch
open Convert.Parse Convert.Source Runs
open Relation (ReflTransGen)

variable {plan : Plan} {d p : Path} {ps sources : List Path} {report : Report}
  {start w w' : Workspace} {here : Address}

/-! ### The sources -/

theorem hasSourceSuffix_congr {q : Path} (h : p.name = q.name) :
    HasSourceSuffix p ↔ HasSourceSuffix q := by
  unfold HasSourceSuffix hasSourceSuffix Path.suffix
  rw [h]

theorem isSource_child {a : Address} {name : String} (ha : w.store.locate w.here d = .ok a)
    (hstep : w.store.hindrance? a name = none) : isSource w (d.child name) = true ↔
      HasSourceSuffix ⟨"", a ++ [name]⟩ ∧ ∃ bytes, w.store.get? (a ++ [name]) = some (.file bytes) := by
  have hsuffix : HasSourceSuffix (d.child name) ↔ HasSourceSuffix ⟨"", a ++ [name]⟩ :=
    hasSourceSuffix_congr (by rw [name_child]; exact (name_child ⟨"", a⟩ name).symm)
  unfold isSource isFileAt
  rw [Bool.and_eq_true, ← HasSourceSuffix, ← hsuffix, and_comm]
  refine and_congr_right fun hname => ?_
  obtain ⟨q, n, hchild, hup, -⟩ := hname.child
  have hn : name ≠ ".." := by
    rintro rfl
    have hlast := congrArg Path.name hchild
    rw [name_child, name_child] at hlast
    exact hup hlast.symm
  unfold Store.look?
  rw [Store.locate_child_of_directory ha hstep hn]
  dsimp only
  cases w.store.get? (a ++ [name]) with
  | none => simp [isFile]
  | some entry => cases entry <;> simp [isFile]

theorem look?_child_iff {s : Store} {a : Address} {name : String} (ha : s.locate here d = .ok a)
    (hd : s.get? a = some .directory) :
    (∃ e, s.look? here (d.child name) = .ok e) ↔ s.hindrance? a name = none := by
  have hlocate : s.locate here (d.child name) = s.walk a [name] := Store.walk_append ha
  unfold Store.look?
  rw [hlocate]
  constructor
  · intro hlook
    by_contra hne
    obtain ⟨fault, hfault⟩ := Option.ne_none_iff_exists'.1 hne
    -- below a directory, what hinders a step is never that there is nothing
    have habsent : fault.isAbsence = false := by
      unfold Store.hindrance? at hfault
      rw [hd] at hfault
      dsimp only at hfault
      split_ifs at hfault <;> cases hfault <;> rfl
    rw [Store.walk, hfault] at hlook
    dsimp only at hlook
    rw [habsent, if_neg Bool.false_ne_true] at hlook
    obtain ⟨e, he⟩ := hlook
    cases he
  · intro hstep
    exact ⟨_, by rw [Store.walk, hstep]; rfl⟩

theorem namesAt_eq_ok {s : Store} {names : List String} : s.namesAt here d = .ok names ↔
    ∃ a, s.locate here d = .ok a ∧ s.get? a = some .directory ∧ s.bars .read a = false ∧
      names = s.childNames a := by
  rw [Store.namesAt, except_bind_eq_ok]
  refine exists_congr fun a => and_congr_right fun _ => ?_
  cases s.get? a with
  | none => exact ⟨nofun, nofun⟩
  | some entry =>
    cases entry with
    | file bytes => exact ⟨nofun, nofun⟩
    | directory => cases hbar : s.bars .read a <;> simp [eq_comm]

/-- The names of sources in a directory are the same, in whatever order they stand. -/
theorem filter_childNames_perm {a : Address} (ha : w.store.locate w.here d = .ok a)
    (ha' : w'.store.locate w'.here d = .ok a)
    (hg : w.store.Grows w'.store) (hsources : ∀ b bytes, HasSourceSuffix ⟨"", b⟩ →
      (w'.store.get? b = some (.file bytes) ↔ w.store.get? b = some (.file bytes)))
    (hstep : ∀ name ∈ w.store.childNames a, w.store.hindrance? a name = none)
    (hstep' : ∀ name ∈ w'.store.childNames a, w'.store.hindrance? a name = none) :
    ((w'.store.childNames a).filter (isSource w' ∘ d.child)).Perm
      ((w.store.childNames a).filter (isSource w ∘ d.child)) := by
  obtain ⟨more, hmore, hnew⟩ := hg.childNames a
  have hsame : ∀ name ∈ w.store.childNames a,
      (isSource w' ∘ d.child) name = (isSource w ∘ d.child) name := by
    intro name hname
    have hname' : name ∈ w'.store.childNames a := hmore ▸ List.mem_append_left _ hname
    dsimp only [Function.comp_apply]
    rw [Bool.eq_iff_iff, isSource_child ha' (hstep' name hname'), isSource_child ha (hstep name hname)]
    exact and_congr_right fun hsuffix => exists_congr fun bytes => hsources _ bytes hsuffix
  have hnone : more.filter (isSource w' ∘ d.child) = [] := by
    refine List.filter_eq_nil_iff.2 fun name hname hsource => ?_
    have hname' : name ∈ w'.store.childNames a := hmore ▸ List.mem_append_right _ hname
    obtain ⟨hsuffix, bytes, hfile⟩ := (isSource_child ha' (hstep' name hname')).1 hsource
    rw [hsources _ bytes hsuffix, (hnew name hname).1] at hfile
    cases hfile
  rw [hmore, List.filter_append, hnone, List.append_nil, List.filter_congr hsame]

/-- **The sources in a directory stay the same**, in the same order, if no file with the suffix of a
source is touched and all else that is new stands behind what there was and can be reached. -/
theorem findSources_again (hfind : (findSources d w).1 = .ok sources) (hhere : w'.here = w.here)
    (hk : w.store.Keeps w'.store) (hg : w.store.Grows w'.store)
    (hreach : ∀ a, w.store.get? a = none → w'.store.get? a ≠ none → w'.store.Reaches a)
    (hsources : ∀ b bytes, HasSourceSuffix ⟨"", b⟩ →
      (w'.store.get? b = some (.file bytes) ↔ w.store.get? b = some (.file bytes))) :
    (findSources d w').1 = .ok sources := by
  obtain ⟨-, names, hnames, hall, rfl⟩ := listed_eq_ok.1 (listed_of_findSources hfind)
  obtain ⟨a, ha, hd, hread, rfl⟩ := namesAt_eq_ok.1 hnames
  have ha' : w'.store.locate w'.here d = .ok a := hhere ▸ hk.locate ha
  have hd' := hk.directory a hd
  have hstep : ∀ name ∈ w.store.childNames a, w.store.hindrance? a name = none := fun name hname =>
    (look?_child_iff ha hd).1 (hall name hname)
  have hstep' := hg.hindrance?_eq_none hk hreach hstep
  -- two rows of the same names that are both in order are the same row
  have hperm := ((sorted_perm _).filter _).trans
    ((filter_childNames_perm ha ha' hg hsources hstep hstep').trans ((sorted_perm _).filter _).symm)
  have hrow : (sorted (w'.store.childNames a)).filter (isSource w' ∘ d.child) =
      (sorted (w.store.childNames a)).filter (isSource w ∘ d.child) :=
    hperm.eq_of_pairwise (fun x y _ _ hxy hyx => String.le_antisymm hxy hyx)
      ((pairwise_sorted _).filter _) ((pairwise_sorted _).filter _)
  rw [findSources_fst]
  refine listed_eq_ok.2 ⟨Store.look?_eq_ok_some.2 ⟨a, ha', hd'⟩, _,
    namesAt_eq_ok.2 ⟨a, ha', hd', by rwa [hk.bars], rfl⟩, fun name hname => ?_, ?_⟩
  · exact (look?_child_iff ha' hd').2 (hstep' name hname)
  · rw [List.filter_map, List.filter_map, hrow]

/-! ### The pages -/

section Written
variable {s s' s'' : Store} {pages : List (Path × String)}

theorem written_cons_eq_ok {page : Path × String} : written here s (page :: pages) = .ok s' ↔
    ∃ t, s.write here page.1 (encodeText page.2) = .ok t ∧ written here t pages = .ok s' := by
  rw [written, List.foldlM_cons, except_bind_eq_ok]
  rfl

theorem sameDirectories_of_written : ∀ {pages : List (Path × String)} {s s' : Store},
    written here s pages = .ok s' → s.SameDirectories s' ∧
      ∀ a, (∀ page ∈ pages, s.locate here page.1 ≠ .ok a) → s'.get? a = s.get? a
  | [], s, s', h => by
    cases h
    exact ⟨.refl s, fun _ _ => rfl⟩
  | page :: pages, s, s', h => by
    obtain ⟨t, hwrite, hrest⟩ := written_cons_eq_ok.1 h
    have hdirs := Store.sameDirectories_of_write hwrite
    obtain ⟨hdirs', hsame⟩ := sameDirectories_of_written hrest
    obtain ⟨b, hb, -, hother⟩ := Store.get?_of_write hwrite
    refine ⟨hdirs.trans hdirs', fun a ha => ?_⟩
    obtain ⟨hpage, hpages⟩ := List.forall_mem_cons.1 ha
    rw [hsame a fun page hmem hloc => hpages page hmem (hdirs.locate_iff.2 hloc)]
    refine hother a ?_
    rintro rfl
    exact hpage hb

/-- **Pages that are written to two stores with the same directories** make them alike, if they differ
at the addresses of the pages only. By induction on the pages: after each, they differ at the
addresses of the others only. -/
theorem get?_of_written_of_agree : ∀ {pages : List (Path × String)} {s s' t t' : Store},
    s.SameDirectories s' → written here s pages = .ok t → written here s' pages = .ok t' →
      (∀ a, (∀ page ∈ pages, s.locate here page.1 ≠ .ok a) → s'.get? a = s.get? a) →
        ∀ a, t'.get? a = t.get? a
  | [], s, s', t, t', _, h, h', hagree, a => by
    cases h
    cases h'
    exact hagree a (by simp)
  | page :: pages, s, s', t, t', hdirs, h, h', hagree, a => by
    obtain ⟨u, hwrite, hrest⟩ := written_cons_eq_ok.1 h
    obtain ⟨u', hwrite', hrest'⟩ := written_cons_eq_ok.1 h'
    have hu := Store.sameDirectories_of_write hwrite
    have hu' := Store.sameDirectories_of_write hwrite'
    obtain ⟨b, hb, hfile, hother⟩ := Store.get?_of_write hwrite
    obtain ⟨b', hb', hfile', hother'⟩ := Store.get?_of_write hwrite'
    obtain rfl : b = b' := Except.ok.inj ((hdirs.locate_iff.1 hb).symm.trans hb')
    refine get?_of_written_of_agree (hu.symm.trans (hdirs.trans hu')) hrest hrest' ?_ a
    intro c hc
    by_cases hcb : c = b
    · rw [hcb, hfile, hfile']
    · rw [hother c hcb, hother' c hcb]
      refine hagree c (List.forall_mem_cons.2 ⟨fun hloc => ?_, fun q hq hloc => ?_⟩)
      · exact hcb (Except.ok.inj (hloc.symm.trans hb))
      · exact hc q hq (hu.locate_iff.1 hloc)

theorem get?_of_written_again (h : written here s pages = .ok s')
    (h' : written here s' pages = .ok s'') (a : Address) : s''.get? a = s'.get? a := by
  obtain ⟨hdirs, hsame⟩ := sameDirectories_of_written h
  exact get?_of_written_of_agree hdirs h h' hsame a

end Written

/-! ### Batches -/

theorem passes_of_convertEach (ht : WellTyped plan.tokenizer) : ∀ {ps : List Path} {w : Workspace},
    Kept start w → (∀ p ∈ ps, Present start p) →
      (convertEach plan plan.output ps w).1.failure = none → ∀ p ∈ ps, Passes plan start p
  | [], _, _, _, _ => by simp
  | p :: ps, w, hk, hps, hnone => by
    obtain ⟨hl, hps⟩ := List.forall_mem_cons.1 hps
    have hp : Passes plan start p := by
      cases hc : conversion plan start p with
      | ok text => exact .inr ⟨text, hc⟩
      | error f =>
        refine .inl ?_
        by_contra hskip
        obtain ⟨log, hstep⟩ := convertSource_of_error ((hk.conversion hl).trans hc)
        rw [Bool.eq_false_iff.2 hskip, Bool.false_and, if_neg Bool.false_ne_true] at hstep
        rw [convertEach_cons_error_eq hstep] at hnone
        cases hnone
    obtain ⟨w₁, hstep, hk₁, -⟩ := convertSource_of_passes ht hk hl hp
    rw [convertEach_cons_ok hstep] at hnone
    exact List.forall_mem_cons.2 ⟨hp, passes_of_convertEach ht hk₁ hps hnone⟩

section Found
variable {store : Store} {fault : Option FileFault}
  (hfind : (findSources (.ofString plan.input) w).1 = .ok sources)
  (hmake : w.store.make w.here plan.output = (store, fault))
include hfind hmake

theorem Confined.findSources_again (h : Confined plan sources { w with store := store } w') :
    (findSources (.ofString plan.input) w').1 = .ok sources := by
  have hmade : (w.store.make w.here plan.output).1 = store := by rw [hmake]
  have hg : w.store.Grows store := hmade ▸ Store.grows_makeBelow _ _ _
  exact Batch.findSources_again hfind h.here ((keeps_made hmake).trans h.directories.1)
    (hg.trans h.grows) (fun a => h.reaches hmake) (h.spares hfind hmake).sources

/-- A batch that has not made the directory for its pages does not make it when it is done again. -/
theorem run_again_of_fault {why : FileFault} (hworkers : 1 ≤ plan.workers) (hfault : fault = some why)
    (hrun : run plan w = (report, w')) : ∃ w'',
      run { plan with skipFailures := true } w' = (report, w'') ∧
      ∀ a, w''.store.get? a = w'.store.get? a := by
  subst hfault
  obtain ⟨log, hfirst⟩ := run_of_fault hworkers hfind hmake
  rw [hfirst] at hrun
  cases hrun
  have hagain := ((Confined.refl plan sources _).of_log log).findSources_again hfind hmake
  have hmake' := Store.makeBelow_of_fault hmake
  have hworkers' : 1 ≤ ({ plan with skipFailures := true } : Plan).workers := hworkers
  obtain ⟨log', hsecond⟩ := run_of_fault hworkers' hagain hmake'
  exact ⟨_, hsecond, fun _ => rfl⟩

theorem run_again_of_made (ht : WellTyped plan.tokenizer) (hworkers : 1 ≤ plan.workers)
    (hmade : fault = none) (hrun : run plan w = (report, w'))
    (hend : plan.skipFailures = true ∨ report.failure = none) : ∃ w'',
      run { plan with skipFailures := true } w' = (report, w'') ∧
      ∀ a, w''.store.get? a = w'.store.get? a := by
  subst hmade
  obtain ⟨log, hprep⟩ := prepare_eq hworkers hfind hmake
  rw [run_of_prepare hprep] at hrun
  set start : Workspace := { w with store := store } with hstart
  have hpresent : ∀ p ∈ sources, Present start p := present_of_make hfind hmake
  have hk : Kept start { start with log := log } := kept_log start log
  have hpass : ∀ p ∈ sources, Passes plan start p := by
    rcases hend with hskip | hnone
    · exact fun _ _ => .inl hskip
    · exact passes_of_convertEach ht hk hpresent (by rw [hrun]; exact hnone)
  obtain ⟨u, hfirst, hku, hpages⟩ :=
    convertEach_whole ht hk fun p hp => ⟨hpresent p hp, hpass p hp⟩
  have hconfined : Confined plan sources start u := by
    have hall := confined_convertEach ((Confined.refl plan sources start).of_log log)
      fun p hp => ⟨hp, hpresent p hp⟩
    rwa [hfirst] at hall
  obtain ⟨rfl, rfl⟩ := Prod.ext_iff.1 (hfirst.symm.trans hrun)
  dsimp only at hku hpages hconfined ⊢
  -- the second batch starts from what the first has left
  have hhere : u.here = w.here := hku.here
  have hmake' : u.store.make u.here plan.output = (u.store, none) := by
    rw [hhere]
    refine Store.make_again (by rw [hmake]) ?_
    rw [hmake]
    exact hconfined.directories.1
  have hfind' := hconfined.findSources_again hfind hmake
  set again : Plan := { plan with skipFailures := true } with hagain
  have hworkers' : 1 ≤ again.workers := hworkers
  have ht' : WellTyped again.tokenizer := ht
  obtain ⟨log', hprep'⟩ := prepare_eq hworkers' hfind' hmake'
  have hk' : Kept start { u with log := log' } := hku.trans (kept_log u log')
  obtain ⟨v, hsecond, -, hpages'⟩ := convertEach_whole ht' hk' fun p hp =>
    ⟨hpresent p hp, (.inl rfl : Passes again start p)⟩
  rw [hhere] at hpages'
  exact ⟨v, (run_of_prepare hprep').trans hsecond, get?_of_written_again hpages hpages'⟩

end Found

/-- **A batch that is done again** comes to the same results and leaves the files as they are, if the
first time no failure has ended it. -/
theorem run_again (ht : WellTyped plan.tokenizer) (hrun : run plan w = (report, w'))
    (hend : plan.skipFailures = true ∨ report.failure = none) : ∃ w'',
      run { plan with skipFailures := true } w' = (report, w'') ∧
      ∀ a, w''.store.get? a = w'.store.get? a := by
  rcases prepare_cases plan w with ⟨f, hfail⟩ | ⟨hworkers, sources, hfind⟩
  · -- what is reported is all that the first batch has changed
    obtain ⟨log, hprep⟩ := hfail w.log
    obtain ⟨log', hagain⟩ := hfail log
    have hprep' : prepare { plan with skipFailures := true } { w with log := log } =
        (.error f, { w with log := log' }) := hagain
    rw [run_of_error hprep] at hrun
    cases hrun
    exact ⟨_, run_of_error hprep', fun _ => rfl⟩
  · rcases hmake : w.store.make w.here plan.output with ⟨store, _ | fault⟩
    · exact run_again_of_made hfind hmake ht hworkers rfl hrun hend
    · exact run_again_of_fault hfind hmake hworkers rfl hrun

/-! ### Workers in any order -/

/-- **A pool that keeps to its pages**: it is on its course and has changed nothing but the pages of
its sources. -/
structure Guarded (plan : Plan) (start : Workspace) (ps : List Path) (pool : Pool) : Prop
    extends OnCourse plan start ps pool where
  confined : Confined plan ps start { start with store := pool.store }

theorem guarded_initial (plan : Plan) (start : Workspace) (sources : List Path) :
    Guarded plan start sources (.initial start.store sources) :=
  ⟨onCourse_initial plan start start.store sources, .refl plan sources start⟩

theorem guarded_of_step {pool pool' : Pool} (hpresent : ∀ p ∈ sources, Present start p)
    (h : Guarded plan start sources pool) (hstep : Step plan start.here pool pool') :
    Guarded plan start sources pool' := by
  obtain ⟨before, after, hadvance⟩ := hstep
  rename_i s s' p stage stage'
  have hmem : (p, stage) ∈ before ++ (p, stage) :: after := by simp
  have hp : p ∈ sources := by
    rw [← h.sources]
    exact List.mem_map_of_mem hmem
  have hl := hpresent p hp
  have hk : Kept start { start with store := s } := h.confined.kept
  have hstage : Foreseen plan start p stage := h.stage _ hmem
  refine ⟨h.replaced s' (hk.foreseen hl hstage hadvance), ?_⟩
  rcases hk.written hl hstage hadvance with ⟨rfl, -⟩ | ⟨text, a, -, hc, ha, rfl⟩
  · exact h.confined
  · exact h.confined.of_set hp hc ha

/-- **Steps in any order change nothing but pages.** -/
theorem guarded_of_steps {pool pool' : Pool} (hpresent : ∀ p ∈ sources, Present start p)
    (h : Guarded plan start sources pool)
    (hsteps : ReflTransGen (Step plan start.here) pool pool') : Guarded plan start sources pool' := by
  induction hsteps with
  | refl => exact h
  | tail _ hstep ih => exact guarded_of_step hpresent ih hstep

theorem Kept.present (hk : Kept start w) (hl : Present start p) : Present w p := by
  obtain ⟨hp, bytes, hq⟩ := hl
  obtain ⟨q, name, rfl, hup, hname⟩ := hp.child
  exact ⟨hp, bytes, hk.holds q name bytes hup hname hq⟩

section Again
variable {pool again : Pool} (hk : Kept start { start with store := pool.store })
  (hpresent : ∀ p ∈ sources, Present start p) (hf : pool.Finished)
include hk hpresent hf

theorem OnCourse.results_again (h : OnCourse plan start sources pool)
    (h' : OnCourse plan { start with store := pool.store } sources again) (hf' : again.Finished) :
    again.results plan = pool.results plan := by
  rw [h.results_eq hf, h'.results_eq hf']
  refine List.map_congr_left fun p hp => ?_
  rw [resultAt, resultAt, hk.conversion (hpresent p hp)]

/-- **Workers that start from where others have ended** leave the files as they are, if all is known
of what both do. -/
theorem Sound.get?_again (h : Sound plan start sources pool)
    (h' : Sound plan { start with store := pool.store } sources again) (a : Address) :
    again.store.get? a = pool.store.get? a := by
  by_cases hpage : ∃ p text, PageAt plan { start with store := pool.store } again p text a
  · obtain ⟨p, text, hp⟩ := hpage
    rw [h'.page p text a hp]
    obtain ⟨hmem, hc, ha⟩ := hp
    have hsource : p ∈ sources := by
      rw [← h'.sources]
      exact List.mem_map_of_mem hmem
    rw [hk.conversion (hpresent p hsource)] at hc
    have hdone : (p, Stage.finished none) ∈ pool.stages := by
      rw [h.stages_eq hf]
      exact List.mem_map.2 ⟨p, hsource, by rw [hc]; rfl⟩
    rw [h.page p text a ⟨hdone, hc, hk.directories.locate_iff.2 ha⟩]
  · push Not at hpage
    exact h'.rest a hpage

end Again

/-- **Steps of workers in any order that are taken again**, in any order, from where they have ended:
they start from the same sources and come to the same results. If no two sources have one stem, they
leave the files as they are. -/
theorem pools_again {store : Store} {pool : Pool}
    (hfind : (findSources (.ofString plan.input) w).1 = .ok sources)
    (hmake : w.store.make w.here plan.output = (store, none))
    (hsteps : ReflTransGen (Step plan w.here) (.initial store sources) pool) :
    Spares plan w pool.store ∧ (pool.Finished →
      (findSources (.ofString plan.input) { w with store := pool.store }).1 = .ok sources ∧
      pool.store.make w.here plan.output = (pool.store, none) ∧
      ∀ again, ReflTransGen (Step plan w.here) (.initial pool.store sources) again →
        (again.Finished → again.results plan = pool.results plan) ∧
        ((sources.map Path.stem).Nodup → ∀ a, again.store.get? a = pool.store.get? a)) := by
  set start : Workspace := { w with store := store } with hstart
  have hpresent : ∀ p ∈ sources, Present start p := present_of_make hfind hmake
  have hguarded : Guarded plan start sources pool :=
    guarded_of_steps hpresent (guarded_initial plan start sources) hsteps
  have hconfined : Confined plan sources start { w with store := pool.store } := hguarded.confined
  have hk : Kept start { start with store := pool.store } := hconfined.kept
  have hmake' : pool.store.make w.here plan.output = (pool.store, none) := by
    refine Store.make_again (by rw [hmake]) ?_
    rw [hmake]
    exact hconfined.directories.1
  refine ⟨hconfined.spares hfind hmake, fun hf =>
    ⟨hconfined.findSources_again hfind hmake, hmake', fun again hsteps' => ?_⟩⟩
  have hpresent' : ∀ p ∈ sources, Present { start with store := pool.store } p := fun p hp =>
    hk.present (hpresent p hp)
  have hguarded' := guarded_of_steps hpresent' (guarded_initial plan _ sources) hsteps'
  refine ⟨hguarded.results_again hk hpresent hf hguarded'.toOnCourse, fun hstems a => ?_⟩
  have hsound := sound_of_steps hpresent hstems (sound_start plan start sources) hsteps
  have hsound' := sound_of_steps hpresent' hstems (sound_start plan _ sources) hsteps'
  exact hsound.get?_again hk hpresent hf hsound' a

/-- **A batch spares its sources and can be repeated.** Whatever becomes of it, it changes at most the
pages of its sources and the missing directories on the way to them, and all files with the suffix of
a source are the same after it. If no failure has ended it and it is done again, skipping failures, it
comes to the same results and leaves the files as they are. The same holds where the steps of several
workers come in any order, but that sources with one stem may then leave the page of another one of
them.

A source keeps its bytes because it has another name than every page: there are no links by which a
page could be a source under another address. -/
theorem batch_repeats (hrun : run plan w = (report, w')) :
    Spares plan w w'.store ∧
    (WellTyped plan.tokenizer → plan.skipFailures = true ∨ report.failure = none → ∃ w'',
      run { plan with skipFailures := true } w' = (report, w'') ∧
      ∀ a, w''.store.get? a = w'.store.get? a) ∧
    ∀ sources store pool, (findSources (.ofString plan.input) w).1 = .ok sources →
      w.store.make w.here plan.output = (store, none) →
      ReflTransGen (Step plan w.here) (.initial store sources) pool →
      Spares plan w pool.store ∧ (pool.Finished →
        (findSources (.ofString plan.input) { w with store := pool.store }).1 = .ok sources ∧
        pool.store.make w.here plan.output = (pool.store, none) ∧
        ∀ again, ReflTransGen (Step plan w.here) (.initial pool.store sources) again →
          (again.Finished → again.results plan = pool.results plan) ∧
          ((sources.map Path.stem).Nodup → ∀ a, again.store.get? a = pool.store.get? a)) := by
  refine ⟨?_, fun ht => run_again ht hrun, fun sources store pool hfind hmake hsteps =>
    pools_again hfind hmake hsteps⟩
  have hspares := spares_run plan w
  rwa [hrun] at hspares

/-! ### Pages beside their sources -/

/-- A batch of two sources, the first of which is no text, to their own directory. -/
def inPlacePlan : Plan where
  input := "in"
  output := ⟨"", ["in"]⟩
  skipFailures := true

/-- The results of this batch. -/
def inPlaceResults : List Result :=
  [⟨brokenSource, ⟨"", ["in", "a.bbcode"]⟩, some (.notUtf8 "in/a.md" .invalidStart)⟩,
    ⟨lineSource, ⟨"", ["in", "b.bbcode"]⟩, none⟩]

theorem run_inPlace : ∃ w', run inPlacePlan { store := brokenStore } =
    ({ results := inPlaceResults }, w') ∧
    w'.store.get? ["in", "b.bbcode"] = some (.file (encodeText "[line]")) := by
  obtain ⟨log, hprep⟩ :=
    prepare_eq (show 1 ≤ inPlacePlan.workers by decide) findSources_brokenStore rfl
  have hbroken : ∀ log, pageOf inPlacePlan { store := brokenStore, log := log } brokenSource =
      .error (.notUtf8 "in/a.md" .invalidStart) := by
    intro log
    have h : pageOf inPlacePlan { store := brokenStore } brokenSource =
        .error (.notUtf8 "in/a.md" .invalidStart) := by cbv
    rw [← h]
    exact pageOf_congr rfl
  have hline : ∀ log, pageOf inPlacePlan { store := brokenStore, log := log } lineSource =
      .ok "[line]" := by
    intro log
    have h : pageOf inPlacePlan { store := brokenStore } lineSource = .ok "[line]" := by cbv
    rw [← h]
    exact pageOf_congr rfl
  obtain ⟨log₁, h₁⟩ := convertSource_eq inPlacePlan inPlacePlan.output brokenSource
    { store := brokenStore, log := log }
  rw [hbroken] at h₁
  obtain ⟨log₂, h₂⟩ := convertSource_eq inPlacePlan inPlacePlan.output lineSource
    { store := brokenStore, log := log₁ }
  rw [hline] at h₂
  have hall := Converts.cons h₁ (.cons h₂ (.nil _))
  exact ⟨_, (run_of_prepare hprep).trans hall.convertEach_eq, rfl⟩

theorem batch_repeats_inPlace : ∃ w' w'' pool again,
    run inPlacePlan { store := brokenStore } = ({ results := inPlaceResults }, w') ∧
    w'.store.get? ["in", "b.bbcode"] = some (.file (encodeText "[line]")) ∧
    w'.store.get? ["in", "a.md"] = some (.file [255]) ∧
    WellTyped inPlacePlan.tokenizer ∧ inPlacePlan.skipFailures = true ∧
    run inPlacePlan w' = ({ results := inPlaceResults }, w'') ∧
    (∀ a, w''.store.get? a = w'.store.get? a) ∧
    (findSources (.ofString inPlacePlan.input) { store := brokenStore }).1 =
      .ok [brokenSource, lineSource] ∧
    brokenStore.make [] inPlacePlan.output = (brokenStore, none) ∧
    ReflTransGen (Step inPlacePlan []) (.initial brokenStore [brokenSource, lineSource]) pool ∧
    pool.Finished ∧
    ReflTransGen (Step inPlacePlan []) (.initial pool.store [brokenSource, lineSource]) again ∧
    again.Finished ∧ again.results inPlacePlan = pool.results inPlacePlan ∧
    ([brokenSource, lineSource].map Path.stem).Nodup ∧
    ∀ a, again.store.get? a = pool.store.get? a := by
  have ht : WellTyped inPlacePlan.tokenizer := wellTyped_own
  have hstems : ([brokenSource, lineSource].map Path.stem).Nodup := by decide
  obtain ⟨w', hrun, hpage⟩ := run_inPlace
  obtain ⟨hspares, hagain, hpools⟩ := batch_repeats hrun
  obtain ⟨w'', hrun', hsame⟩ := hagain ht (.inl rfl)
  obtain ⟨pool, hsteps, hf⟩ := exists_finished inPlacePlan []
    (.initial brokenStore [brokenSource, lineSource])
  obtain ⟨again, hsteps', hf'⟩ := exists_finished inPlacePlan []
    (.initial pool.store [brokenSource, lineSource])
  obtain ⟨-, hpool⟩ := hpools _ brokenStore pool findSources_brokenStore rfl hsteps
  obtain ⟨-, -, hall⟩ := hpool hf
  obtain ⟨hresults, hfiles⟩ := hall again hsteps'
  have hsuffix : HasSourceSuffix ⟨"", ["in", "a.md"]⟩ := by
    unfold HasSourceSuffix
    decide
  exact ⟨w', w'', pool, again, hrun, hpage, (hspares.sources _ _ hsuffix).2 rfl, ht, rfl, hrun',
    hsame, findSources_brokenStore, rfl, hsteps, hf, hsteps', hf', hresults hf', hstems,
    hfiles hstems⟩

end Bulletin.Proofs.Batch
