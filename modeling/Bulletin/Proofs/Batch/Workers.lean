import Bulletin.Proofs.Batch.Failures
import Mathlib.Logic.Relation

/-! # Batches with several workers

Workers take the sources of a batch one step further at a time: a source is loaded, its text is
converted, and its page is written. The steps of different sources may come in any order. If no two
sources have one stem, every order ends with the same results and the same files as the batch with
one worker, whose run is one of these orders.

What a step finds is settled before the first one: pages take the place of no source and of no
directory, so the text of a source and the fate of its page do not depend on what has been done
(`Sound`). So only the pages that have been written tell two stores apart.

* `sound_of_step`: a step of any worker keeps the pool sound.
* `exists_finished`: work that is under way can be finished.
* `reach_of_converts`: the batch with one worker is one of the orders.
* `workers_agree`: all orders end alike. -/

namespace Bulletin.Proofs.Batch

open Bulletin.Batch
open Convert.Parse Convert.Source Runs
open Relation (ReflTransGen)

variable {plan : Plan} {p q : Path} {ps sources : List Path} {rs : List Result} {start w w' : Workspace}
  {here : Address} {s s' : Store}

/-! ### Steps of workers -/

/-- **How far a worker has come with a source**: it waits, its text has been loaded, its page has been
made, or it is finished, with the failure if it has failed. -/
inductive Stage where
  | waiting
  | loaded (text : Except Failure String)
  | converted (page : Except Failure String)
  | finished (failure : Option Failure)

/-- The work that is left of a source. -/
def Stage.left : Stage → Nat
  | waiting => 3
  | loaded _ => 2
  | converted _ => 1
  | finished _ => 0

/-- The failure of a source that is finished. -/
def Stage.failure : Stage → Option Failure
  | finished failure => failure
  | _ => none

/-- The page of the text of a source, or why there is none. -/
def pageOfText (plan : Plan) (text : Except Failure String) : Except Failure String := do
  let document ← documentFrom plan.reader plan.tokenizer .markdown text
  let o ← rendererOptions plan.renderer
  pageFrom o document

/-- **The step of a worker** on a source: the files and the stage of the source after it, none if the
source is finished. -/
def advance (plan : Plan) (here : Address) (s : Store) (p : Path) : Stage → Option (Store × Stage)
  | .waiting => some (s, .loaded (textOf { store := s, here := here } (.file p)))
  | .loaded text => some (s, .converted (pageOfText plan text))
  | .converted page =>
    match stored (outputPath p plan.output) { store := s, here := here } page with
    | .ok s' => some (s', .finished none)
    | .error f => some (s, .finished (some f))
  | .finished _ => none

/-- A batch under way: the files, and the sources in their order with their stages. -/
structure Pool where
  store : Store
  stages : List (Path × Stage)

/-- The pool in which all sources wait. -/
def Pool.initial (s : Store) (sources : List Path) : Pool := ⟨s, sources.map fun p => (p, .waiting)⟩

/-- A pool whose sources are all finished. -/
def Pool.Finished (pool : Pool) : Prop := ∀ x ∈ pool.stages, x.2.left = 0

/-- The results of a pool, in the order of the sources. -/
def Pool.results (plan : Plan) (pool : Pool) : List Result :=
  pool.stages.map fun x => ⟨x.1, outputPath x.1 plan.output, x.2.failure⟩

/-- **A step of any worker**: one of the sources is taken one step further. -/
inductive Step (plan : Plan) (here : Address) : Pool → Pool → Prop
  | mk {s s' : Store} {p : Path} {stage stage' : Stage} (before after : List (Path × Stage)) :
    advance plan here s p stage = some (s', stage') →
      Step plan here ⟨s, before ++ (p, stage) :: after⟩ ⟨s', before ++ (p, stage') :: after⟩

theorem pageOf_eq (plan : Plan) (w : Workspace) (p : Path) :
    pageOf plan w p = pageOfText plan (textOf w (.file p)) := by
  rw [pageOf, convertFile_none, (gives_convert _ _ _ _ _ _).fst]
  rfl

/-! ### What a step finds -/

/-- What is known of the stage of a source from the start. -/
def Foreseen (plan : Plan) (start : Workspace) (p : Path) : Stage → Prop
  | .waiting => True
  | .loaded text => text = textOf start (.file p)
  | .converted page => page = pageOf plan start p
  | .finished failure => failure = Mdast.fault? (conversion plan start p)

section Kept
variable (hk : Kept start { start with store := s })
include hk

theorem Kept.conversion_eq (plan : Plan) (hl : Present start p) : Batch.conversion plan start p =
    match stored (outputPath p plan.output) { store := s, here := start.here }
      (pageOf plan start p) with
    | .error e => .error e
    | .ok _ => pageOf plan start p := by
  have hpage : pageOf plan { start with store := s } p = pageOf plan start p :=
    (pageOf_congr (hk.read_eq hl)).symm
  rw [← hk.conversion hl, Batch.conversion_eq, hpage]
  rfl

theorem Kept.foreseen {stage stage' : Stage} (hl : Present start p)
    (hstage : Foreseen plan start p stage)
    (hadvance : advance plan start.here s p stage = some (s', stage')) :
    Foreseen plan start p stage' := by
  cases stage with
  | waiting =>
    cases hadvance
    show textOf { store := s, here := start.here } (.file p) = textOf start (.file p)
    exact textOf_file_congr (hk.read_eq hl).symm
  | loaded text =>
    cases hadvance
    have htext : text = textOf start (.file p) := hstage
    show pageOfText plan text = pageOf plan start p
    rw [pageOf_eq, htext]
  | converted page =>
    obtain rfl : page = pageOf plan start p := hstage
    have hc := hk.conversion_eq plan hl
    unfold advance at hadvance
    dsimp only at hadvance
    cases hs : stored (outputPath p plan.output) { store := s, here := start.here }
        (pageOf plan start p) with
    | ok s₁ =>
      rw [hs] at hc hadvance
      cases hadvance
      obtain ⟨text, htext, -⟩ := stored_eq_ok.1 hs
      show none = Mdast.fault? (Batch.conversion plan start p)
      rw [hc, htext]
      rfl
    | error f =>
      rw [hs] at hc hadvance
      cases hadvance
      show some f = Mdast.fault? (Batch.conversion plan start p)
      rw [hc]
      rfl
  | finished failure => cases hadvance

theorem Kept.written {stage stage' : Stage} (hl : Present start p)
    (hstage : Foreseen plan start p stage)
    (hadvance : advance plan start.here s p stage = some (s', stage')) :
    (s' = s ∧ stage' ≠ .finished none) ∨ ∃ text a, stage' = .finished none ∧
      Batch.conversion plan start p = .ok text ∧
      start.store.WritableAt start.here (outputPath p plan.output) a ∧
      s' = s.set a (.file (encodeText text)) := by
  cases stage with
  | waiting =>
    cases hadvance
    exact .inl ⟨rfl, nofun⟩
  | loaded text =>
    cases hadvance
    exact .inl ⟨rfl, nofun⟩
  | converted page =>
    obtain rfl : page = pageOf plan start p := hstage
    have hc := hk.conversion_eq plan hl
    unfold advance at hadvance
    dsimp only at hadvance
    cases hs : stored (outputPath p plan.output) { store := s, here := start.here }
        (pageOf plan start p) with
    | ok s₁ =>
      rw [hs] at hc hadvance
      cases hadvance
      obtain ⟨text, htext, hwrite⟩ := stored_eq_ok.1 hs
      obtain ⟨a, ha, rfl⟩ := Store.write_eq_ok hwrite
      exact .inr ⟨text, a, rfl, hc.trans htext, hk.directories.writableAt_iff.2 ha, rfl⟩
    | error f =>
      rw [hs] at hadvance
      cases hadvance
      exact .inl ⟨rfl, nofun⟩
  | finished failure => cases hadvance

end Kept

/-! ### Pools on their course -/

/-- **A pool on its course**: the stages of its sources are as foreseen. -/
structure OnCourse (plan : Plan) (start : Workspace) (sources : List Path) (pool : Pool) : Prop where
  sources : pool.stages.map Prod.fst = sources
  stage : ∀ x ∈ pool.stages, Foreseen plan start x.1 x.2

theorem onCourse_initial (plan : Plan) (start : Workspace) (s : Store) (sources : List Path) :
    OnCourse plan start sources (.initial s sources) where
  sources := by simp [Pool.initial, Function.comp_def]
  stage x hx := by
    obtain ⟨p, -, rfl⟩ := List.mem_map.1 hx
    trivial

theorem OnCourse.replaced {before after : List (Path × Stage)} {stage stage' : Stage}
    (h : OnCourse plan start sources ⟨s, before ++ (p, stage) :: after⟩) (s' : Store)
    (hforeseen : Foreseen plan start p stage') :
    OnCourse plan start sources ⟨s', before ++ (p, stage') :: after⟩ where
  sources := by
    rw [← h.sources]
    simp
  stage x hx := by
    rcases List.mem_append.1 hx with hx | hx
    · exact h.stage x (List.mem_append_left _ hx)
    · rcases List.mem_cons.1 hx with rfl | hx
      · exact hforeseen
      · exact h.stage x (List.mem_append_right _ (List.mem_cons_of_mem _ hx))

section Finished
variable {pool : Pool} (h : OnCourse plan start sources pool) (hf : pool.Finished)
include h hf

theorem OnCourse.stages_eq : pool.stages =
    sources.map fun p => (p, .finished (Mdast.fault? (conversion plan start p))) := by
  have hself : ∀ x ∈ pool.stages,
      x = (x.1, Stage.finished (Mdast.fault? (conversion plan start x.1))) := by
    rintro ⟨p, stage⟩ hx
    have hforeseen := h.stage _ hx
    have hleft := hf _ hx
    cases stage with
    | finished failure =>
      obtain rfl : failure = Mdast.fault? (conversion plan start p) := hforeseen
      rfl
    | _ => cases hleft
  rw [← h.sources, List.map_map]
  conv_lhs => rw [← List.map_id pool.stages]
  exact List.map_congr_left hself

theorem OnCourse.results_eq : pool.results plan = sources.map (resultAt plan start) := by
  rw [Pool.results, h.stages_eq hf, List.map_map]
  rfl

end Finished

/-! ### Sound pools -/

/-- An address at which a pool has written a page. -/
def PageAt (plan : Plan) (start : Workspace) (pool : Pool) (p : Path) (text : String) (a : Address) :
    Prop :=
  (p, .finished none) ∈ pool.stages ∧ conversion plan start p = .ok text ∧
    start.store.locate start.here (outputPath p plan.output) = .ok a

/-- **A pool of which all is known**: the stages of its sources are as foreseen, the pages of those
that have succeeded stand at their addresses, and all else is as it was at the start. -/
structure Sound (plan : Plan) (start : Workspace) (sources : List Path) (pool : Pool) : Prop
    extends OnCourse plan start sources pool where
  bars : pool.store.bars = start.store.bars
  page : ∀ p text a, PageAt plan start pool p text a →
    pool.store.get? a = some (.file (encodeText text))
  rest : ∀ a, (∀ p text, ¬ PageAt plan start pool p text a) →
    pool.store.get? a = start.store.get? a

theorem sound_start (plan : Plan) (start : Workspace) (sources : List Path) :
    Sound plan start sources (.initial start.store sources) where
  toOnCourse := onCourse_initial plan start start.store sources
  bars := rfl
  page p text a h := by
    obtain ⟨q, -, hq⟩ := List.mem_map.1 h.1
    cases hq
  rest _ _ := rfl

theorem PageAt.not_directory {pool : Pool} {text : String} {a : Address}
    (h : PageAt plan start pool p text a) : start.store.get? a ≠ some .directory := by
  obtain ⟨-, hc, ha⟩ := h
  obtain ⟨-, b, hb⟩ := conversion_eq_ok.1 hc
  obtain rfl : a = b := Except.ok.inj (ha.symm.trans hb.locate)
  exact hb.noDirectory

theorem PageAt.address {pool : Pool} {text : String} {a : Address}
    (h : PageAt plan start pool p text a) : ∃ c, a = c ++ [p.stem ++ ".bbcode"] := by
  obtain ⟨c, -, -, hc⟩ := Store.locate_child (bbcode_ne_up p.stem) h.2.2
  exact ⟨c, hc⟩

section Sound
variable {pool pool' : Pool} (h : Sound plan start sources pool)
include h

theorem Sound.kept : Kept start { start with store := pool.store } := by
  have hdirs : start.store.SameDirectories pool.store := by
    refine ⟨⟨h.bars, fun a ha => ?_⟩, h.bars.symm, fun a ha => ?_⟩
    · rw [h.rest a fun p text hp => hp.not_directory ha, ha]
    · by_cases hpage : ∃ p text, PageAt plan start pool p text a
      · obtain ⟨p, text, hp⟩ := hpage
        rw [h.page p text a hp] at ha
        cases ha
      · rwa [h.rest a fun p text hp => hpage ⟨p, text, hp⟩] at ha
  refine ⟨rfl, hdirs, fun q name bytes hup hname hq => ?_⟩
  obtain ⟨a, ha, hg⟩ := Store.holds_iff.1 hq
  obtain ⟨c, -, -, rfl⟩ := Store.locate_child hup ha
  refine Store.holds_iff.2 ⟨_, hdirs.locate_iff.1 ha, ?_⟩
  -- a page would have given the address its own name
  rw [h.rest _ fun p text hp => ?_, hg]
  obtain ⟨d, hd⟩ := hp.address
  exact hname p.stem (List.append_singleton_inj.1 hd).2

end Sound

theorem locate_ne {a b : Address} (hne : p.stem ≠ q.stem)
    (ha : s.locate here (outputPath p plan.output) = .ok a)
    (hb : s.locate here (outputPath q plan.output) = .ok b) : a ≠ b := by
  obtain ⟨c, -, -, rfl⟩ := Store.locate_child (bbcode_ne_up p.stem) ha
  obtain ⟨d, -, -, rfl⟩ := Store.locate_child (bbcode_ne_up q.stem) hb
  intro h
  have hnames : p.stem ++ ".bbcode" = q.stem ++ ".bbcode" := (List.append_singleton_inj.1 h).2
  exact hne ((String.append_left_inj _).1 hnames)

/-! ### Steps keep pools sound -/

section Replace
variable {before after : List (Path × Stage)} {stage stage' : Stage}

theorem mem_replaced {x y z : Path × Stage} (hy : x ≠ y) (hz : x ≠ z) :
    x ∈ before ++ z :: after ↔ x ∈ before ++ y :: after := by
  simp [hy, hz]

variable (h : Sound plan start sources ⟨s, before ++ (p, stage) :: after⟩)
include h

/-- A step that writes no page keeps a pool sound. -/
theorem Sound.of_no_page (hstage : stage ≠ .finished none) (hstage' : stage' ≠ .finished none)
    (hforeseen : Foreseen plan start p stage') :
    Sound plan start sources ⟨s, before ++ (p, stage') :: after⟩ := by
  have hpages : ∀ q text a, PageAt plan start ⟨s, before ++ (p, stage') :: after⟩ q text a ↔
      PageAt plan start ⟨s, before ++ (p, stage) :: after⟩ q text a := by
    intro q text a
    have hne : (q, Stage.finished none) ≠ (p, stage) := fun hq => hstage (Prod.ext_iff.1 hq).2.symm
    have hne' : (q, Stage.finished none) ≠ (p, stage') := fun hq => hstage' (Prod.ext_iff.1 hq).2.symm
    exact and_congr_left fun _ => mem_replaced hne hne'
  refine ⟨h.replaced s hforeseen, h.bars, fun q text a hq => ?_, fun a ha => ?_⟩
  · exact h.page q text a ((hpages q text a).1 hq)
  · exact h.rest a fun q text hq => ha q text ((hpages q text a).2 hq)

/-- **A step that writes the page of its source keeps a pool sound**: no other page has its address. -/
theorem Sound.of_page {text : String} {a : Address} (hstems : (sources.map Path.stem).Nodup)
    (hc : conversion plan start p = .ok text)
    (ha : start.store.WritableAt start.here (outputPath p plan.output) a) : Sound plan start sources
      ⟨s.set a (.file (encodeText text)), before ++ (p, .finished none) :: after⟩ := by
  have hforeseen : Foreseen plan start p (.finished none) := by
    unfold Foreseen
    rw [hc]
    rfl
  have hcourse := h.replaced (s.set a (.file (encodeText text))) hforeseen
  have hsources := hcourse.sources
  have hp : p ∈ sources := by
    rw [← hsources]
    simp
  have hnew : PageAt plan start ⟨s.set a (.file (encodeText text)),
      before ++ (p, .finished none) :: after⟩ p text a := ⟨by simp, hc, ha.locate⟩
  have hold : ∀ q, q ≠ p → ((q, Stage.finished none) ∈ before ++ (p, .finished none) :: after ↔
      (q, Stage.finished none) ∈ before ++ (p, stage) :: after) := by
    intro q hq
    exact mem_replaced (fun h => hq (Prod.ext_iff.1 h).1) (fun h => hq (Prod.ext_iff.1 h).1)
  refine ⟨hcourse, h.bars, fun q t b hq => ?_, fun b hb => ?_⟩
  · obtain ⟨hqmem, hqc, hqa⟩ := hq
    by_cases hqp : q = p
    · subst hqp
      rw [hc] at hqc
      rw [ha.locate] at hqa
      cases hqc
      cases hqa
      exact Store.get?_set_self ha.ne_nil
    · -- only here are the stems needed: the page of another source stands elsewhere
      have hqs : q ∈ sources := hsources ▸ List.mem_map_of_mem hqmem
      have hstem : q.stem ≠ p.stem := fun hs => hqp (List.inj_on_of_nodup_map hstems hqs hp hs)
      have hba : b ≠ a := locate_ne hstem hqa ha.locate
      rw [← h.page q t b ⟨(hold q hqp).1 hqmem, hqc, hqa⟩]
      exact Store.get?_set_of_ne hba
  · have hba : b ≠ a := by
      rintro rfl
      exact hb p text hnew
    rw [← h.rest b fun q t hq => ?_]
    · exact Store.get?_set_of_ne hba
    · by_cases hqp : q = p
      · subst hqp
        exact hba (Except.ok.inj (hq.2.2.symm.trans ha.locate))
      · exact hb q t ⟨(hold q hqp).2 hq.1, hq.2⟩

end Replace

/-- **A step of any worker keeps a pool sound**, if no two sources have one stem. -/
theorem sound_of_step {pool pool' : Pool} (hpresent : ∀ p ∈ sources, Present start p)
    (hstems : (sources.map Path.stem).Nodup) (h : Sound plan start sources pool)
    (hstep : Step plan start.here pool pool') : Sound plan start sources pool' := by
  obtain ⟨before, after, hadvance⟩ := hstep
  rename_i s s' p stage stage'
  have hmem : (p, stage) ∈ before ++ (p, stage) :: after := by simp
  have hp : p ∈ sources := by
    rw [← h.sources]
    exact List.mem_map_of_mem hmem
  have hl := hpresent p hp
  have hstage : Foreseen plan start p stage := h.stage _ hmem
  have hforeseen := h.kept.foreseen hl hstage hadvance
  have hunfinished : stage ≠ .finished none := by
    rintro rfl
    cases hadvance
  rcases h.kept.written hl hstage hadvance with ⟨hs, hne⟩ | ⟨text, a, rfl, hc, ha, hs⟩
  · obtain rfl : s = s' := hs.symm
    exact h.of_no_page hunfinished hne hforeseen
  · rw [hs]
    exact h.of_page hstems hc ha

/-- **Every order of steps keeps a pool sound.** -/
theorem sound_of_steps {pool pool' : Pool} (hpresent : ∀ p ∈ sources, Present start p)
    (hstems : (sources.map Path.stem).Nodup) (h : Sound plan start sources pool)
    (hsteps : ReflTransGen (Step plan start.here) pool pool') : Sound plan start sources pool' := by
  induction hsteps with
  | refl => exact h
  | tail _ hstep ih => exact sound_of_step hpresent hstems ih hstep

/-! ### Finished pools -/

theorem exists_advance (plan : Plan) (here : Address) (s : Store) (p : Path) {stage : Stage}
    (h : stage.left ≠ 0) : ∃ s' stage', advance plan here s p stage = some (s', stage') ∧
      stage'.left < stage.left := by
  cases stage with
  | waiting => exact ⟨_, _, rfl, Nat.lt_succ_self 2⟩
  | loaded text => exact ⟨_, _, rfl, Nat.lt_succ_self 1⟩
  | converted page =>
    unfold advance
    dsimp only
    cases stored (outputPath p plan.output) { store := s, here := here } page with
    | ok s' => exact ⟨_, _, rfl, Nat.one_pos⟩
    | error f => exact ⟨_, _, rfl, Nat.one_pos⟩
  | finished failure => exact absurd rfl h

/-- **Work that is under way can be finished**, by induction on the work that is left. -/
theorem exists_finished (plan : Plan) (here : Address) (pool : Pool) :
    ∃ pool', ReflTransGen (Step plan here) pool pool' ∧ pool'.Finished := by
  induction hn : (pool.stages.map fun x => x.2.left).sum using Nat.strong_induction_on
    generalizing pool with
  | _ n ih =>
    by_cases hf : pool.Finished
    · exact ⟨pool, .refl, hf⟩
    · obtain ⟨⟨p, stage⟩, hx, hleft⟩ : ∃ x ∈ pool.stages, x.2.left ≠ 0 := by
        unfold Pool.Finished at hf
        push Not at hf
        exact hf
      obtain ⟨s, stages⟩ := pool
      obtain ⟨before, after, rfl⟩ := List.append_of_mem hx
      have hleft : stage.left ≠ 0 := hleft
      obtain ⟨s', stage', hadvance, hless⟩ := exists_advance plan here s p hleft
      -- whichever source is taken further, there is less work left in all
      have hsum : ((before ++ (p, stage') :: after).map fun x => x.2.left).sum < n := by
        rw [← hn]
        simp only [List.map_append, List.map_cons, List.sum_append, List.sum_cons]
        omega
      obtain ⟨pool', hsteps, hfinished⟩ := ih _ hsum ⟨s', before ++ (p, stage') :: after⟩ rfl
      exact ⟨pool', .head (.mk before after hadvance) hsteps, hfinished⟩

section Finished
variable {pool pool' : Pool} (h : Sound plan start sources pool) (hf : pool.Finished)
include h hf

theorem Sound.get?_eq (h' : Sound plan start sources pool') (hf' : pool'.Finished) (a : Address) :
    pool.store.get? a = pool'.store.get? a := by
  have hpages : ∀ p text, PageAt plan start pool p text a ↔ PageAt plan start pool' p text a := by
    intro p text
    unfold PageAt
    rw [h.stages_eq hf, h'.stages_eq hf']
  by_cases hpage : ∃ p text, PageAt plan start pool p text a
  · obtain ⟨p, text, hp⟩ := hpage
    rw [h.page p text a hp, h'.page p text a ((hpages p text).1 hp)]
  · push Not at hpage
    rw [h.rest a hpage, h'.rest a fun p text hp => hpage p text ((hpages p text).2 hp)]

end Finished

/-! ### One worker -/

theorem steps_of_convertSource {r : Result} {w₁ : Workspace}
    (h : convertSource plan plan.output p w = (.ok r, w₁)) (before after : List (Path × Stage)) :
    ReflTransGen (Step plan w.here) ⟨w.store, before ++ (p, .waiting) :: after⟩
      ⟨w₁.store, before ++ (r.source, .finished r.failure) :: after⟩ := by
  have hload : advance plan w.here w.store p .waiting =
      some (w.store, .loaded (textOf { store := w.store, here := w.here } (.file p))) := rfl
  have hconvert : advance plan w.here w.store p
      (.loaded (textOf { store := w.store, here := w.here } (.file p))) =
      some (w.store, .converted (pageOf plan w p)) := by
    have htext : textOf { store := w.store, here := w.here } (.file p) = textOf w (.file p) :=
      textOf_file_congr rfl
    rw [pageOf_eq, ← htext]
    rfl
  have hwrite : advance plan w.here w.store p (.converted (pageOf plan w p)) =
      some (w₁.store, .finished r.failure) := by
    obtain ⟨log, hstep⟩ := convertSource_eq plan plan.output p w
    rw [h] at hstep
    show (match stored (outputPath p plan.output) w (pageOf plan w p) with
      | .ok s' => some (s', Stage.finished none)
      | .error f => some (w.store, .finished (some f))) = _
    cases hs : stored (outputPath p plan.output) w (pageOf plan w p) with
    | ok store =>
      rw [hs] at hstep
      cases hstep
      rfl
    | error f =>
      rw [hs] at hstep
      dsimp only at hstep
      split_ifs at hstep
      · cases hstep
        rfl
      · cases hstep
  rw [(convertSource_ok h).1]
  exact ((ReflTransGen.single (.mk before after hload)).tail (.mk before after hconvert)).tail
    (.mk before after hwrite)

theorem steps_of_converts (h : Converts plan plan.output w ps rs w') : ∀ before : List (Path × Stage),
      ReflTransGen (Step plan w.here) ⟨w.store, before ++ ps.map fun p => (p, .waiting)⟩
        ⟨w'.store, before ++ rs.map fun r => (r.source, .finished r.failure)⟩ := by
  induction h with
  | nil w => exact fun before => .refl
  | @cons w w₁ w' p ps r rs hstep _ ih =>
    intro before
    have hfirst := steps_of_convertSource hstep before (ps.map fun p => (p, .waiting))
    have hrest := ih (before ++ [(r.source, .finished r.failure)])
    rw [(convertSource_ok hstep).2.2.1, List.append_assoc, List.append_assoc] at hrest
    exact hfirst.trans hrest

/-- **A batch with one worker is one of the orders** in which workers may go on. -/
theorem reach_of_converts (h : Converts plan plan.output w ps rs w') :
    ∃ pool, ReflTransGen (Step plan w.here) (.initial w.store ps) pool ∧ pool.Finished ∧
      pool.store = w'.store := by
  refine ⟨_, steps_of_converts h [], fun x hx => ?_, rfl⟩
  obtain ⟨r, -, rfl⟩ := List.mem_map.1 hx
  rfl

/-! ### All orders -/

/-- **All orders end alike.** Where failures are skipped and no two sources have one stem, the steps of
the sources may come in any order: it can be gone on to the end from wherever it has come, and at the
end the results and the files are those of the batch with one worker, whose run is one of the orders.
If there are no sources to be found or the directory for the pages cannot be made, there is no step,
however many workers there are.

No file has two addresses here, so that two sources with different stems have different pages, and no
page is another name of a source. -/
theorem workers_agree (hone : plan.workers = 1) (ht : WellTyped plan.tokenizer)
    (hskip : plan.skipFailures = true) :
    (∀ f, (findSources (.ofString plan.input) w).1 = .error f → ∀ n : Int, 1 ≤ n → ∃ log,
      run { plan with workers := n } w = ({ failure := some f }, { w with log := log })) ∧
    ∀ sources, (findSources (.ofString plan.input) w).1 = .ok sources →
      (sources.map Path.stem).Nodup →
      (∀ store fault, w.store.make w.here plan.output = (store, some fault) →
        ∀ n : Int, 1 ≤ n → ∃ log, run { plan with workers := n } w =
          ({ failure := some (.outputDirectory plan.output.toString) },
            { w with store := store, log := log })) ∧
      ∀ store, w.store.make w.here plan.output = (store, none) →
        let initial := Pool.initial store sources
        ∃ report w', run plan w = (report, w') ∧ report.failure = none ∧
          report.results.map Result.source = sources ∧
          (∃ pool, ReflTransGen (Step plan w.here) initial pool ∧ pool.Finished ∧
            pool.results plan = report.results ∧ pool.store = w'.store) ∧
          ∀ pool, ReflTransGen (Step plan w.here) initial pool →
            (∃ pool', ReflTransGen (Step plan w.here) pool pool' ∧ pool'.Finished) ∧
            (pool.Finished → pool.results plan = report.results ∧
              ∀ a, pool.store.get? a = w'.store.get? a) := by
  refine ⟨fun f hfind n hn => run_of_unfound hn hfind, fun sources hfind hstems =>
    ⟨fun store fault hmake n hn => run_of_fault hn hfind hmake, fun store hmake => ?_⟩⟩
  intro initial
  set start : Workspace := { w with store := store } with hstart
  obtain ⟨log, hprep⟩ := prepare_eq (by omega) hfind hmake
  have hpresent : ∀ p ∈ sources, Present start p := present_of_make hfind hmake
  obtain ⟨w', hresults, -, -⟩ := convertEach_whole ht (kept_log start log) fun p hp =>
    ⟨hpresent p hp, .inl hskip⟩
  have hconverts := converts_of_convertEach hone hresults rfl
  -- the pool in which the batch with one worker ends is sound and finished, as all others are
  obtain ⟨last, hreach, hfinished, hstore⟩ := reach_of_converts hconverts
  have hsound : ∀ pool, ReflTransGen (Step plan w.here) initial pool →
      Sound plan start sources pool := fun pool hsteps =>
    sound_of_steps hpresent hstems (sound_start plan start sources) hsteps
  have hlast := hsound last hreach
  refine ⟨_, w', (run_of_prepare hprep).trans hresults, rfl, ?_, ?_, fun pool hsteps => ?_⟩
  · simp [Function.comp_def, resultAt]
  · exact ⟨last, hreach, hfinished, hlast.results_eq hfinished, hstore⟩
  · refine ⟨exists_finished plan w.here pool, fun hf => ?_⟩
    have hpool := hsound pool hsteps
    refine ⟨hpool.results_eq hf, fun a => ?_⟩
    rw [hpool.get?_eq hf hlast hfinished a, hstore]

theorem workers_agree_broken : skippingPlan.workers = 1 ∧ WellTyped skippingPlan.tokenizer ∧
    skippingPlan.skipFailures = true ∧
    (findSources (.ofString skippingPlan.input) { store := brokenStore }).1 =
      .ok [brokenSource, lineSource] ∧
    ([brokenSource, lineSource].map Path.stem).Nodup ∧
    ∃ report w', run skippingPlan { store := brokenStore } = (report, w') ∧
      report.results.map Result.source = [brokenSource, lineSource] ∧
      ∀ pool, ReflTransGen (Step skippingPlan [])
          (.initial brokenStore [brokenSource, lineSource]) pool → pool.Finished →
        pool.results skippingPlan = report.results ∧
          ∀ a, pool.store.get? a = w'.store.get? a := by
  have hstems : ([brokenSource, lineSource].map Path.stem).Nodup := by decide
  have hone : skippingPlan.workers = 1 := rfl
  have ht : WellTyped skippingPlan.tokenizer := wellTyped_own
  obtain ⟨report, w', hrun, -, hresults, -, hall⟩ := ((workers_agree
    (w := { store := brokenStore }) hone ht rfl).2 _ findSources_brokenStore hstems).2 brokenStore rfl
  exact ⟨hone, ht, rfl, findSources_brokenStore, hstems, report, w', hrun, hresults,
    fun pool hsteps hf => (hall pool hsteps).2 hf⟩

end Bulletin.Proofs.Batch
