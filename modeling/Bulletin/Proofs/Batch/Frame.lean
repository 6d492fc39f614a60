import Bulletin.Proofs.Batch.Failures

/-! # What a batch may change

A batch may change files in two ways only: directories that are missing are made on the way to the
directory for the pages, and the pages of the sources are written in it. Whatever else there is
stays, and so do all files with the suffix of a source, since no page has a name that ends in one.
This holds whether sources fail or not, and however many workers there are.

* `prepare_cases`: how the preparation of a batch ends.
* `confined_convertEach`: the conversion of sources changes nothing but their pages (`Confined`).
* `spares_run`: what a batch changes at most (`Spares`). -/

namespace Bulletin.Proofs.Batch

open Bulletin.Batch
open Convert.Source Runs
open Store (addressOf)

variable {plan : Plan} {d p : Path} {ps sources : List Path} {f : Failure} {text : String}
  {start w w' : Workspace} {s : Store}

/-! ### The preparation -/

/-- **How the preparation of a batch ends**: it fails, for a reason that does not depend on what has
been reported, before it changes a file, or the sources are found. -/
theorem prepare_cases (plan : Plan) (w : Workspace) :
    (∃ f, ∀ log, ∃ log', prepare plan { w with log := log } =
      (.error f, { w with log := log' })) ∨
    (1 ≤ plan.workers ∧ ∃ sources, (findSources (.ofString plan.input) w).1 = .ok sources) := by
  by_cases hworkers : plan.workers < 1
  · refine .inl ⟨.workers plan.workers, fun log => ⟨log, ?_⟩⟩
    unfold prepare
    dsimp only
    rw [if_pos hworkers]
    exact bind_error rfl
  have hone : 1 ≤ plan.workers := by omega
  cases hfind : (findSources (.ofString plan.input) w).1 with
  | error f => exact .inl ⟨f, prepare_of_unfound hone hfind⟩
  | ok sources => exact .inr ⟨hone, sources, rfl⟩

/-! ### Pages and nothing else -/

/-- **What the conversion of sources does to a workspace**: the directories stay, no entry is lost,
and where the files differ from what they were at the start, there is the page of a source. -/
structure Confined (plan : Plan) (sources : List Path) (start w : Workspace) : Prop where
  here : w.here = start.here
  directories : start.store.SameDirectories w.store
  grows : start.store.Grows w.store
  page : ∀ a, w.store.get? a ≠ start.store.get? a → ∃ p ∈ sources, ∃ text,
    conversion plan start p = .ok text ∧
      start.store.locate start.here (outputPath p plan.output) = .ok a ∧
      w.store.get? a = some (.file (encodeText text))

theorem Confined.of_log (h : Confined plan sources start w) (log : List Record) :
    Confined plan sources start { w with log := log } := ⟨h.here, h.directories, h.grows, h.page⟩

theorem Confined.refl (plan : Plan) (sources : List Path) (start : Workspace) :
    Confined plan sources start start :=
  ⟨rfl, .refl _, .refl _, fun _ ha => absurd rfl ha⟩

theorem address_of_page {s : Store} {here a : Address}
    (h : s.locate here (outputPath p d) = .ok a) :
    a = addressOf here d ++ [p.stem ++ ".bbcode"] := by
  rw [Store.addressOf_of_locate h]
  exact Store.addressOf_child (bbcode_ne_up p.stem) here d

theorem Confined.kept (h : Confined plan sources start w) : Kept start w := by
  refine ⟨h.here, h.directories, fun q name bytes hup hname hq => ?_⟩
  obtain ⟨a, ha, hg⟩ := Store.holds_iff.1 hq
  obtain ⟨c, -, -, rfl⟩ := Store.locate_child hup ha
  rw [h.here]
  refine Store.holds_iff.2 ⟨_, h.directories.locate_iff.1 ha, ?_⟩
  by_contra hne
  obtain ⟨p, -, text, -, hpage, -⟩ := h.page _ fun heq => hne (heq.trans hg)
  have haddress := address_of_page hpage
  exact hname p.stem (List.append_singleton_inj.1 haddress).2

theorem Confined.of_set {a : Address} (h : Confined plan sources start w) (hp : p ∈ sources)
    (hc : conversion plan start p = .ok text)
    (ha : start.store.WritableAt start.here (outputPath p plan.output) a) :
    Confined plan sources start { w with store := w.store.set a (.file (encodeText text)) } where
  here := h.here
  directories := h.directories.trans
    (Store.sameDirectories_set (h.directories.writableAt_iff.1 ha).noDirectory)
  grows := h.grows.trans (Store.grows_set _ _ _)
  page b hb := by
    dsimp only at hb ⊢
    by_cases hba : b = a
    · subst hba
      exact ⟨p, hp, text, hc, ha.locate, Store.get?_set_self ha.ne_nil⟩
    · rw [Store.get?_set_of_ne hba] at hb ⊢
      exact h.page b hb

/-- **The conversion of a source changes nothing but its page.** -/
theorem confined_convertSource (h : Confined plan sources start w) (hl : Present start p)
    (hp : p ∈ sources) : Confined plan sources start (convertSource plan plan.output p w).2 := by
  have hsame : conversion plan w p = conversion plan start p := h.kept.conversion hl
  cases hc : conversion plan start p with
  | ok text =>
    obtain ⟨store, log, hwrite, hstep⟩ := convertSource_of_ok (hsame.trans hc)
    obtain ⟨a, ha, rfl⟩ := Store.write_eq_ok hwrite
    rw [h.here] at ha
    rw [hstep]
    exact (h.of_set hp hc (h.directories.writableAt_iff.2 ha)).of_log log
  | error f =>
    obtain ⟨log, hstep⟩ := convertSource_of_error (hsame.trans hc)
    rw [hstep]
    exact h.of_log log

/-- A source that ends a batch ends it after the sources that other workers have. -/
theorem convertEach_cons_error_eq {d : Path} {w₁ : Workspace}
    (h : convertSource plan d p w = (.error f, w₁)) : convertEach plan d (p :: ps) w =
      ({ failure := some f }, if plan.workers ≠ 1 then (convertEach plan d ps w₁).2 else w₁) := by
  simp only [convertEach, bind, StateT.bind, ExceptT.run, h]
  split_ifs <;> rfl

/-- **The conversion of sources changes nothing but their pages**, whether some fail or not. -/
theorem confined_convertEach : ∀ {ps : List Path} {w : Workspace}, Confined plan sources start w →
    (∀ p ∈ ps, p ∈ sources ∧ Present start p) →
      Confined plan sources start (convertEach plan plan.output ps w).2
  | [], w, h, _ => h
  | p :: ps, w, h, hps => by
    obtain ⟨⟨hp, hl⟩, hps⟩ := List.forall_mem_cons.1 hps
    have hfirst := confined_convertSource h hl hp
    have hrest := confined_convertEach hfirst hps
    rcases hstep : convertSource plan plan.output p w with ⟨f | r, w₁⟩
    · rw [hstep] at hfirst hrest
      rw [convertEach_cons_error_eq hstep]
      dsimp only
      split_ifs
      · exact hrest
      · exact hfirst
    · rw [hstep] at hrest
      rw [convertEach_cons_ok hstep]
      exact hrest

/-! ### Whole batches -/

/-- **What a batch may do to files.** Where they differ, a directory has been made that was missing on
the way to the directory for the pages, or there was no directory and now there is the page of a
source, which has the name of the source with another suffix. Files with the suffix of a source are
the same. -/
structure Spares (plan : Plan) (w : Workspace) (s : Store) : Prop where
  changed : ∀ a, s.get? a ≠ w.store.get? a →
    (w.store.get? a = none ∧ s.get? a = some .directory ∧
      ∃ k, a = addressOf w.here { plan.output with names := plan.output.names.take k }) ∨
    (w.store.get? a ≠ some .directory ∧
      ∃ sources, (findSources (.ofString plan.input) w).1 = .ok sources ∧ ∃ p ∈ sources, ∃ text,
        pageOf plan w p = .ok text ∧ a = addressOf w.here plan.output ++ [p.stem ++ ".bbcode"] ∧
        s.get? a = some (.file (encodeText text)))
  sources : ∀ a bytes, HasSourceSuffix ⟨"", a⟩ →
    (s.get? a = some (.file bytes) ↔ w.store.get? a = some (.file bytes))

theorem not_hasSourceSuffix_page (a : Address) (stem : String) :
    ¬ HasSourceSuffix ⟨"", a ++ [stem ++ ".bbcode"]⟩ := by
  intro h
  obtain ⟨d, name, hpath, -, hname⟩ := h.child
  have hnames : a ++ [stem ++ ".bbcode"] = d.names ++ [name] := congrArg Path.names hpath
  exact hname stem (List.append_singleton_inj.1 hnames).2.symm

theorem Spares.of_same (plan : Plan) (w : Workspace) : Spares plan w w.store :=
  ⟨fun _ ha => absurd rfl ha, fun _ _ _ => Iff.rfl⟩

section Made
variable {store : Store} {fault : Option FileFault}
  (hfind : (findSources (.ofString plan.input) w).1 = .ok sources)
  (hmake : w.store.make w.here plan.output = (store, fault))
include hmake

theorem keeps_made : w.store.Keeps store := by
  have hk := Store.keeps_make w.store w.here plan.output
  rwa [hmake] at hk

theorem made_of_make {a : Address} (h : store.get? a ≠ w.store.get? a) :
    w.store.get? a = none ∧ store.get? a = some .directory ∧
      (∃ k, a = addressOf w.here { plan.output with names := plan.output.names.take k }) ∧
      store.Reaches a := by
  have hmade : (w.store.make w.here plan.output).1 = store := by rw [hmake]
  subst hmade
  exact Store.made_of_makeBelow _ _ _ h

theorem Confined.reaches (h : Confined plan sources { w with store := store } w') {a : Address}
    (hnone : w.store.get? a = none) (hnew : w'.store.get? a ≠ none) : w'.store.Reaches a := by
  by_cases hpage : w'.store.get? a = store.get? a
  · obtain ⟨-, -, -, hreach⟩ := made_of_make hmake (a := a) (by rwa [hnone, ← hpage])
    exact h.directories.1.reaches hreach
  · obtain ⟨p, -, text, -, haddress, -⟩ := h.page a hpage
    exact h.directories.1.reaches (Store.reaches_of_locate (bbcode_ne_up p.stem) haddress)

include hfind

/-- **The pages of sources and the directory for them** are all that a batch changes. -/
theorem Confined.spares (h : Confined plan sources { w with store := store } w') :
    Spares plan w w'.store := by
  have hchanged : ∀ a, w'.store.get? a ≠ w.store.get? a →
      (w.store.get? a = none ∧ w'.store.get? a = some .directory ∧
        ∃ k, a = addressOf w.here { plan.output with names := plan.output.names.take k }) ∨
      (w.store.get? a ≠ some .directory ∧
        ∃ sources, (findSources (.ofString plan.input) w).1 = .ok sources ∧ ∃ p ∈ sources, ∃ text,
          pageOf plan w p = .ok text ∧ a = addressOf w.here plan.output ++ [p.stem ++ ".bbcode"] ∧
          w'.store.get? a = some (.file (encodeText text))) := by
    intro a ha
    by_cases hpage : w'.store.get? a = store.get? a
    · -- the conversions leave the entry as it is, so it was made before them
      rw [hpage] at ha ⊢
      obtain ⟨hnone, hdir, hk, -⟩ := made_of_make hmake ha
      exact .inl ⟨hnone, hdir, hk⟩
    · obtain ⟨p, hp, text, hc, haddress, hfile⟩ := h.page a hpage
      refine .inr ⟨fun hdir => ?_, sources, hfind, p, hp, text, ?_, address_of_page haddress, hfile⟩
      · have hdir' := h.directories.1.directory a ((keeps_made hmake).directory a hdir)
        rw [hfile] at hdir'
        cases hdir'
      · obtain ⟨-, bytes, hq⟩ := source_of_mem hfind hp
        have hmade := hq.of_make plan.output
        rw [hmake] at hmade
        rw [← (conversion_eq_ok.1 hc).1]
        exact pageOf_congr ((keeps_made hmake).read_eq hq hmade)
  refine ⟨hchanged, fun a bytes hsuffix => ?_⟩
  by_cases ha : w'.store.get? a = w.store.get? a
  · rw [ha]
  · rcases hchanged a ha with ⟨hnone, hdir, -⟩ | ⟨-, -, -, p, -, text, -, rfl, -⟩
    · rw [hnone, hdir]
      exact ⟨nofun, nofun⟩
    · exact absurd hsuffix (not_hasSourceSuffix_page _ _)

end Made

/-- **What a batch changes at most**, however it ends. -/
theorem spares_run (plan : Plan) (w : Workspace) : Spares plan w (run plan w).2.store := by
  rcases prepare_cases plan w with ⟨f, hfail⟩ | ⟨hworkers, sources, hfind⟩
  · obtain ⟨log, hprep⟩ := hfail w.log
    rw [run_of_error hprep]
    exact .of_same plan w
  rcases hmake : w.store.make w.here plan.output with ⟨store, _ | fault⟩
  · obtain ⟨log, hprep⟩ := prepare_eq hworkers hfind hmake
    rw [run_of_prepare hprep]
    refine Confined.spares hfind hmake
      (confined_convertEach ((Confined.refl plan _ _).of_log log) fun p hp => ⟨hp, ?_⟩)
    exact present_of_make hfind hmake p hp
  · obtain ⟨log, hrun⟩ := run_of_fault hworkers hfind hmake
    rw [hrun]
    exact Confined.spares hfind hmake ((Confined.refl plan sources _).of_log log)

end Bulletin.Proofs.Batch
