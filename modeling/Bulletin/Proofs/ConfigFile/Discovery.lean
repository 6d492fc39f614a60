import Bulletin.Proofs.ConfigFile.Reading
import Mathlib.Data.List.Basic
import Mathlib.Data.List.Induction

/-! # Where a configuration is found

A configuration is looked for in a directory and in those above it, up to the root. In a directory the
files count that hold nothing but a configuration, in the order of their names, and after them the file
of a project, if it has one. A file of a project that is refused, or that has none, is passed by. So
what is found is the nearest, and nothing is found just if there is nothing. Only the bytes of such a
file on the way can lead the search astray.

* `found_upward_cases`: where the way up ends.
* `goes_well_iff`: when a file is loaded, and a search is done, without going astray.
* `nearest_found`: what is found if no file on the way leads astray. -/

namespace Bulletin.Proofs.ConfigFile.Discovery

open Bulletin.ConfigFile
open Convert.Parse Runs Reading

/-! ### The names in a directory -/

/-- The place of a name in the order in which the files of a directory count. -/
def rank (name : String) : Nat := (dedicatedNames ++ [projectName]).idxOf name

theorem idxOf_le_of_notMem {as bs : List String} {b c : String} (h : c ∉ as) :
    (as ++ b :: bs).idxOf b ≤ (as ++ b :: bs).idxOf c := by
  have hb : (as ++ b :: bs).idxOf b ≤ as.length := by
    rw [List.idxOf_append]
    split_ifs with hmem
    · exact Nat.le_of_lt (List.idxOf_lt_length_of_mem hmem)
    · simp
  have hc : as.length ≤ (as ++ b :: bs).idxOf c := by
    rw [List.idxOf_append, if_neg h]
    exact Nat.le_add_left _ _
  exact Nat.le_trans hb hc

/-- The dedicated name that is found is the first by rank. -/
theorem rank_le_of_find? {q : String → Bool} {name name' : String}
    (h : dedicatedNames.find? q = some name) (hname' : q name' = true) : rank name ≤ rank name' := by
  obtain ⟨-, before, after, hall, hbefore⟩ := List.find?_eq_some_iff_append.1 h
  rw [rank, rank, hall, List.append_assoc, List.cons_append]
  exact idxOf_le_of_notMem fun hmem => by simpa [hname'] using hbefore _ hmem

theorem eq_of_rank_eq {name name' : String} (hmem : name ∈ dedicatedNames ++ [projectName])
    (h : rank name = rank name') : name = name' := (List.idxOf_inj hmem).1 h

theorem find?_dedicated_eq_some_iff {q : String → Bool} {name : String} :
    dedicatedNames.find? q = some name ↔ name ∈ dedicatedNames ∧ q name = true ∧
      ∀ name' ∈ dedicatedNames, q name' = true → rank name ≤ rank name' := by
  constructor
  · intro h
    exact ⟨List.mem_of_find?_eq_some h, List.find?_some h, fun name' _ => rank_le_of_find? h⟩
  · rintro ⟨hmem, hq, hfirst⟩
    cases h : dedicatedNames.find? q with
    | none => exact absurd hq (List.find?_eq_none.1 h name hmem)
    | some found =>
      have hfound := hfirst found (List.mem_of_find?_eq_some h) (List.find?_some h)
      rw [eq_of_rank_eq (List.mem_append_left _ hmem)
        (Nat.le_antisymm hfound (rank_le_of_find? h hq))]

theorem rank_le_project : ∀ name ∈ dedicatedNames, rank name ≤ rank projectName := by decide

theorem project_not_dedicated : projectName ∉ dedicatedNames := by decide

/-! ### Candidates -/

/-- **A file that has a configuration**, by its name in a directory. The file of a project must be
readable; of the others it is enough that they are there. -/
inductive Candidate (readers : Readers) (w : Workspace) (directory : Address) : String → Prop
  | dedicated {name : String} {bytes : List UInt8} : name ∈ dedicatedNames →
      w.store.Holds w.here (pathOf (directory ++ [name])) bytes →
      Candidate readers w directory name
  | project {bytes : List UInt8} {text : List Char} {fields tools config : Fields} :
      w.store.read w.here (pathOf (directory ++ [projectName])) = .ok bytes →
      Text.decodeAll bytes = .ok text → readers.toml (.ofList text) = .ok fields →
      fields.get? "tool" = some (.dict tools) → Fields.get? tools "md2nexus" = some (.dict config) →
      config ≠ [] → Candidate readers w directory projectName

/-- **A directory that leads astray**: the files in it cannot be looked at, which is so for all names
that count if it is for one, or the bytes of its file of a project derail their reading. -/
def Trap (readers : Readers) (w : Workspace) (directory : Address) : Prop :=
  (∃ fault, w.store.look? w.here (pathOf (directory ++ [projectName])) = .error fault) ∨
    ∃ bytes, w.store.read w.here (pathOf (directory ++ [projectName])) = .ok bytes ∧
      Derails readers .project bytes

/-- The first of the files of a directory that have a configuration. -/
structure First (readers : Readers) (w : Workspace) (directory : Address) (name : String) : Prop where
  candidate : Candidate readers w directory name
  first : ∀ name', Candidate readers w directory name' → rank name ≤ rank name'

section Directory
variable {readers : Readers} {w : Workspace} {directory : Address} {name : String}

theorem Candidate.mem (h : Candidate readers w directory name) :
    name ∈ dedicatedNames ++ [projectName] := by
  cases h with
  | dedicated hname _ => exact List.mem_append_left _ hname
  | project => exact List.mem_append_right _ (List.mem_singleton.2 rfl)

theorem First.unique {name' : String} (h : First readers w directory name)
    (h' : First readers w directory name') : name = name' :=
  eq_of_rank_eq h.candidate.mem
    (Nat.le_antisymm (h.first _ h'.candidate) (h'.first _ h.candidate))

theorem candidate_project_iff : Candidate readers w directory projectName ↔ ∃ config,
    Format.project.readFile readers w (pathOf (directory ++ [projectName])) = .ok config ∧
      config ≠ [] := by
  constructor
  · intro h
    generalize hname : projectName = name at h
    cases h with
    | dedicated hmem _ => exact absurd (hname ▸ hmem) project_not_dedicated
    | @project bytes text fields tools config hread htext hfields htool hown hne =>
      rw [readFile_of_read hread]
      exact ⟨config,
        (ofProject_eq_ok_iff hne).2 ⟨text, fields, tools, htext, hfields, htool, hown⟩, hne⟩
  · rintro ⟨config, hconfig, hne⟩
    obtain ⟨bytes, hread, hproject⟩ := except_bind_eq_ok.1 hconfig
    obtain ⟨text, fields, tools, htext, hfields, htool, hown⟩ :=
      (ofProject_eq_ok_iff hne).1 hproject
    exact .project (except_mapError_eq_ok.1 hread) htext hfields htool hown hne

/-! ### Looks into a directory -/

theorem short_names : ∀ name ∈ dedicatedNames ++ [projectName],
    name.utf8ByteSize ≤ Store.nameLimit := by decide

theorem look?_of_known {d : Path} (h : ∃ e, w.store.look? w.here (d.child projectName) = .ok e)
    (hname : name ∈ dedicatedNames ++ [projectName]) :
    ∃ e, w.store.look? w.here (d.child name) = .ok e := by
  refine exists_ok_iff.2 fun ⟨fault, hfault⟩ => exists_ok_iff.1 h ⟨fault, ?_⟩
  exact (Store.look?_child_error_iff (short_names name hname)
    (short_names projectName (by decide))).1 hfault

theorem look?_of_holds {d : Path} {bytes : List UInt8} (hname : name ∈ dedicatedNames)
    (h : w.store.Holds w.here (d.child name) bytes) :
    ∃ e, w.store.look? w.here (d.child projectName) = .ok e := by
  refine exists_ok_iff.2 fun ⟨fault, hfault⟩ => exists_ok_iff.1 ⟨_, h⟩ ⟨fault, ?_⟩
  exact (Store.look?_child_error_iff (short_names projectName (by decide))
    (short_names name (List.mem_append_left _ hname))).1 hfault

theorem look?_of_candidate (h : Candidate readers w directory name) :
    ∃ e, w.store.look? w.here (pathOf (directory ++ [projectName])) = .ok e := by
  cases h with
  | project hread => exact ⟨_, Store.holds_of_read hread⟩
  | dedicated hname hfile => exact look?_of_holds (d := pathOf directory) hname hfile

/-- The first of some names at which there is a file below a path, or why it cannot be told. -/
def firstNamed (w : Workspace) (d : Path) : List String → Except Failure (Option String)
  | [] => .ok none
  | name :: rest => do if isFile (← seen w (d.child name)) then return some name else firstNamed w d rest

theorem firstNamed_eq_find? {d : Path} : ∀ {names : List String},
    (∀ name ∈ names, ∃ e, w.store.look? w.here (d.child name) = .ok e) →
      firstNamed w d names = .ok (names.find? fun name => isFileAt w (d.child name))
  | [], _ => rfl
  | name :: rest, h => by
    obtain ⟨⟨e, he⟩, hrest⟩ := List.forall_mem_cons.1 h
    have hfile : isFileAt w (d.child name) = isFile e := by rw [isFileAt, he]
    rw [firstNamed, seen_eq_ok.2 he, except_ok_bind, List.find?_cons, hfile, firstNamed_eq_find? hrest]
    cases isFile e <;> rfl

theorem firstNamed_of_fault {d : Path} {rest : List String} {fault : FileFault}
    (h : w.store.look? w.here (d.child name) = .error fault) :
    firstNamed w d (name :: rest) = .error (.system fault (d.child name).toString) := by
  rw [firstNamed, seen_of_fault h]
  rfl

theorem firstNamed_eq_none_iff {d : Path} : ∀ {names : List String},
    firstNamed w d names = .ok none ↔
      ∀ name ∈ names, ∃ e, w.store.look? w.here (d.child name) = .ok e ∧ isFile e = false
  | [] => by simp [firstNamed]
  | name :: rest => by
    rw [List.forall_mem_cons]
    cases hlook : w.store.look? w.here (d.child name) with
    | error fault =>
      rw [firstNamed_of_fault hlook]
      refine iff_of_false (fun h => ?_) ?_
      · cases h
      · rintro ⟨⟨_, ⟨⟩, -⟩, -⟩
    | ok e =>
      rw [firstNamed, seen_eq_ok.2 hlook, except_ok_bind]
      cases hfile : isFile e with
      | true =>
        refine iff_of_false (fun h => ?_) ?_
        · cases h
        · rintro ⟨⟨_, ⟨⟩, hnot⟩, -⟩
          rw [hfile] at hnot
          cases hnot
      | false =>
        exact firstNamed_eq_none_iff.trans ⟨fun h => ⟨⟨e, rfl, hfile⟩, h⟩, fun h => h.2⟩

theorem firstNamed_dedicated {d : Path}
    (h : ∃ e, w.store.look? w.here (d.child projectName) = .ok e) :
    firstNamed w d dedicatedNames =
      .ok (dedicatedNames.find? fun name => isFileAt w (d.child name)) :=
  firstNamed_eq_find? fun _ hname => look?_of_known h (List.mem_append_left _ hname)

theorem firstNamed_dedicated_fault {d : Path} {fault : FileFault}
    (h : w.store.look? w.here (d.child projectName) = .error fault) :
    ∃ f, firstNamed w d dedicatedNames = .error f :=
  ⟨_, firstNamed_of_fault ((Store.look?_child_error_iff (short_names projectName (by decide))
    (short_names _ (by decide))).1 h)⟩

/-! ### One directory -/

/-- Whether what is read is a configuration; what is refused is none. -/
def counts : Except Failure Fields → Except Failure Bool
  | .ok config => .ok (!config.isEmpty)
  | .error f => if f.kind = .argument then .ok false else .error f

theorem counts_eq_true_iff {r : Except Failure Fields} :
    counts r = .ok true ↔ ∃ config, r = .ok config ∧ config ≠ [] := by
  cases r with
  | error f =>
    refine iff_of_false ?_ (by rintro ⟨_, ⟨⟩, -⟩)
    rw [counts]
    split_ifs <;> exact nofun
  | ok config => cases config <;> simp [counts]

theorem exists_counts_error_iff {r : Except Failure Fields} :
    (∃ f, counts r = .error f) ↔ Strays r := by
  cases r with
  | ok config => exact iff_of_false nofun (not_strays_ok config)
  | error f =>
    rw [strays_error_iff, counts]
    by_cases hkind : f.kind = .argument
    · exact iff_of_false (by rw [if_pos hkind]; exact nofun) fun h => h hkind
    · exact iff_of_true ⟨f, if_neg hkind⟩ hkind

/-- Whether the file of a project in a directory has a configuration. -/
def hasConfig (readers : Readers) (w : Workspace) (directory : Address) : Except Failure Bool := do
  let path := pathOf (directory ++ [projectName])
  if isFile (← seen w path) then counts (Format.project.readFile readers w path) else return false

/-- The name of the file with the configuration of a directory. -/
def nameIn (readers : Readers) (w : Workspace) (directory : Address) :
    Except Failure (Option String) := do
  match ← firstNamed w (pathOf directory) dedicatedNames with
  | some name => return some name
  | none => return if ← hasConfig readers w directory then some projectName else none

section Seen
variable (h : ∃ e, w.store.look? w.here (pathOf (directory ++ [projectName])) = .ok e)
include h

variable (readers) in
/-- The file of a project has a configuration if reading it gives one; one that is not there, or is
no file, is refused. -/
theorem hasConfig_eq : hasConfig readers w directory = .ok false ∧
      (∀ bytes, w.store.read w.here (pathOf (directory ++ [projectName])) ≠ .ok bytes) ∨
    hasConfig readers w directory =
      counts (Format.project.readFile readers w (pathOf (directory ++ [projectName]))) := by
  obtain ⟨e, he⟩ := h
  unfold hasConfig
  dsimp only
  rw [seen_eq_ok.2 he, except_ok_bind]
  by_cases hfile : isFile e = true
  · exact .inr (if_pos hfile)
  · refine .inl ⟨if_neg hfile, fun bytes hread => hfile ?_⟩
    have hholds : w.store.look? w.here _ = _ := Store.holds_of_read hread
    rw [Except.ok.inj (he.symm.trans hholds)]
    rfl

theorem hasConfig_eq_true_iff :
    hasConfig readers w directory = .ok true ↔ Candidate readers w directory projectName := by
  rw [candidate_project_iff]
  rcases hasConfig_eq readers h with ⟨hfalse, hread⟩ | hcounts
  · rw [hfalse]
    refine iff_of_false nofun ?_
    rintro ⟨config, hconfig, -⟩
    obtain ⟨bytes, hbytes, -⟩ := except_bind_eq_ok.1 hconfig
    exact hread bytes (except_mapError_eq_ok.1 hbytes)
  · rw [hcounts, counts_eq_true_iff]

theorem exists_hasConfig_error_iff :
    (∃ f, hasConfig readers w directory = .error f) ↔ Trap readers w directory := by
  have htrap : Trap readers w directory ↔ ∃ bytes,
      w.store.read w.here (pathOf (directory ++ [projectName])) = .ok bytes ∧
        Derails readers .project bytes := or_iff_right (exists_ok_iff.1 h)
  rw [htrap]
  rcases hasConfig_eq readers h with ⟨hfalse, hread⟩ | hcounts
  · rw [hfalse]
    exact iff_of_false nofun fun ⟨bytes, hbytes, _⟩ => hread bytes hbytes
  · rw [hcounts, exists_counts_error_iff, strays_readFile_iff]

theorem nameIn_of_seen : nameIn readers w directory =
    match dedicatedNames.find? fun name => isFileAt w (pathOf (directory ++ [name])) with
    | some name => .ok (some name)
    | none => (hasConfig readers w directory).map fun has => if has then some projectName else none := by
  unfold nameIn
  rw [firstNamed_dedicated (d := pathOf directory) h, except_ok_bind]
  have hchild : (fun name => isFileAt w ((pathOf directory).child name)) =
      fun name => isFileAt w (pathOf (directory ++ [name])) := rfl
  rw [hchild]
  cases dedicatedNames.find? fun name => isFileAt w (pathOf (directory ++ [name])) with
  | some name => rfl
  | none => cases hasConfig readers w directory <;> rfl

theorem nameIn_cases_of_seen :
    (∃ name, nameIn readers w directory = .ok (some name) ∧ First readers w directory name) ∨
    (nameIn readers w directory = .ok none ∧ (∀ name, ¬ Candidate readers w directory name) ∧
      ¬ Trap readers w directory) ∨
    (∃ f, nameIn readers w directory = .error f ∧ (∀ name, ¬ Candidate readers w directory name) ∧
      Trap readers w directory) := by
  rw [nameIn_of_seen h]
  cases hdedicated : dedicatedNames.find? fun name => isFileAt w (pathOf (directory ++ [name])) with
  | some name =>
    obtain ⟨bytes, hfile⟩ := isFileAt_iff.1 (@List.find?_some _
      (fun name => isFileAt w (pathOf (directory ++ [name]))) _ _ hdedicated)
    refine .inl ⟨name, rfl, .dedicated (List.mem_of_find?_eq_some hdedicated)
      hfile, fun name' h' => ?_⟩
    cases h' with
    | dedicated _ hfile' => exact rank_le_of_find? hdedicated (isFileAt_iff.2 ⟨_, hfile'⟩)
    | project => exact rank_le_project _ (List.mem_of_find?_eq_some hdedicated)
  | none =>
    have honly : ∀ name, Candidate readers w directory name → name = projectName := by
      intro name h'
      cases h' with
      | dedicated hname hfile =>
        exact absurd (isFileAt_iff.2 ⟨_, hfile⟩) (List.find?_eq_none.1 hdedicated _ hname)
      | project => rfl
    have hnone : hasConfig readers w directory ≠ .ok true →
        ∀ name, ¬ Candidate readers w directory name := fun hne name h' =>
      hne ((hasConfig_eq_true_iff h).2 (honly name h' ▸ h'))
    cases hhas : hasConfig readers w directory with
    | error f =>
      exact .inr (.inr ⟨f, rfl, hnone (by rw [hhas]; exact nofun),
        (exists_hasConfig_error_iff h).1 ⟨f, hhas⟩⟩)
    | ok has =>
      have htrap : ¬ Trap readers w directory := by
        intro htrap
        obtain ⟨f, hf⟩ := (exists_hasConfig_error_iff h).2 htrap
        rw [hhas] at hf
        cases hf
      cases has with
      | false => exact .inr (.inl ⟨rfl, hnone (by rw [hhas]; exact nofun), htrap⟩)
      | true =>
        refine .inl ⟨projectName, rfl, (hasConfig_eq_true_iff h).1 hhas, fun name' h' => ?_⟩
        exact Nat.le_of_eq (congrArg rank (honly name' h').symm)

end Seen

/-- **What a directory comes to**: the first of its files with a configuration, or nothing, or it
leads astray, which only one without such a file does. -/
theorem nameIn_cases (readers : Readers) (w : Workspace) (directory : Address) :
    (∃ name, nameIn readers w directory = .ok (some name) ∧ First readers w directory name) ∨
    (nameIn readers w directory = .ok none ∧ (∀ name, ¬ Candidate readers w directory name) ∧
      ¬ Trap readers w directory) ∨
    (∃ f, nameIn readers w directory = .error f ∧ (∀ name, ¬ Candidate readers w directory name) ∧
      Trap readers w directory) := by
  cases hlook : w.store.look? w.here (pathOf (directory ++ [projectName])) with
  | ok e => exact nameIn_cases_of_seen ⟨e, hlook⟩
  | error fault =>
    obtain ⟨f, hf⟩ := firstNamed_dedicated_fault (d := pathOf directory) hlook
    refine .inr (.inr ⟨f, ?_, fun name h => ?_, .inl ⟨fault, hlook⟩⟩)
    · rw [nameIn, hf]
      rfl
    · exact exists_ok_iff.1 (look?_of_candidate h) ⟨fault, hlook⟩

theorem nameIn_eq_none_iff : nameIn readers w directory = .ok none ↔
    (∀ name, ¬ Candidate readers w directory name) ∧ ¬ Trap readers w directory := by
  rcases nameIn_cases readers w directory with ⟨name, h, hfirst⟩ | ⟨h, hnone⟩ | ⟨f, h, -, htrap⟩
  · exact iff_of_false (by rw [h]; exact nofun) fun hnone => hnone.1 name hfirst.candidate
  · exact iff_of_true h hnone
  · exact iff_of_false (by rw [h]; exact nofun) fun hnone => hnone.2 htrap

/-- What a directory comes to that has no file with a dedicated name, but that of a project. -/
theorem nameIn_of_read {bytes : List UInt8}
    (hdedicated : firstNamed w (pathOf directory) dedicatedNames = .ok none)
    (hread : w.store.read w.here (pathOf (directory ++ [projectName])) = .ok bytes) :
    nameIn readers w directory =
      (counts (ofProject readers (pathOf (directory ++ [projectName])) bytes)).map fun has =>
        if has then some projectName else none := by
  have hseen : seen w (pathOf (directory ++ [projectName])) = .ok (some (.file bytes)) :=
    seen_eq_ok.2 (Store.holds_of_read hread)
  have hhas : hasConfig readers w directory =
      counts (ofProject readers (pathOf (directory ++ [projectName])) bytes) := by
    unfold hasConfig
    dsimp only
    rw [hseen, readFile_of_read hread]
    rfl
  rw [nameIn, hdedicated, hhas]
  cases counts (ofProject readers (pathOf (directory ++ [projectName])) bytes) <;> rfl

end Directory

/-! ### The way up -/

/-- The path of the first file with a configuration in the directories of a list. -/
def found (readers : Readers) (w : Workspace) : List Address → Except Failure (Option Path)
  | [] => .ok none
  | directory :: rest =>
    nameIn readers w directory >>= fun
      | some name => .ok (some (pathOf (directory ++ [name])))
      | none => found readers w rest

section Way
variable {readers : Readers} {w : Workspace} {directory : Address}

theorem found_cons_of_none {rest : List Address} (h : nameIn readers w directory = .ok none) :
    found readers w (directory :: rest) = found readers w rest := by
  rw [found, h, except_ok_bind]

theorem found_cons_of_ne_none {rest : List Address} (h : nameIn readers w directory ≠ .ok none) :
    found readers w (directory :: rest) = (nameIn readers w directory).map
      (Option.map fun name => pathOf (directory ++ [name])) := by
  rw [found]
  cases hname : nameIn readers w directory with
  | error f => rfl
  | ok name =>
    cases name with
    | none => exact absurd hname h
    | some name => rfl

theorem upward_nil : upward [] = [[]] := rfl

/-- The way up from a directory goes on from the one above it. -/
theorem upward_concat (a : Address) (name : String) :
    upward (a ++ [name]) = (a ++ [name]) :: upward a := by
  rw [upward, upward, List.length_append, List.length_singleton, List.range_succ,
    List.reverse_append, List.reverse_singleton, List.singleton_append, List.map_cons,
    List.take_of_length_le (by simp)]
  refine congrArg _ (List.map_congr_left fun k hk => List.take_append_of_le_length ?_)
  have := List.mem_range.1 (List.mem_reverse.1 hk)
  omega

/-- **Where the way up ends**: above the root if every directory on it comes to nothing, else at the
lowest that does not. -/
theorem found_upward_cases (readers : Readers) (w : Workspace) (a : Address) :
    ((∀ d, d <+: a → nameIn readers w d = .ok none) ∧ found readers w (upward a) = .ok none) ∨
    ∃ d, d <+: a ∧ nameIn readers w d ≠ .ok none ∧
      (∀ d', d' <+: a → d.length < d'.length → nameIn readers w d' = .ok none) ∧
      found readers w (upward a) =
        (nameIn readers w d).map (Option.map fun name => pathOf (d ++ [name])) := by
  induction a using List.reverseRecOn with
  | nil =>
    rw [upward_nil]
    by_cases h : nameIn readers w [] = .ok none
    · refine .inl ⟨fun d hd => ?_, found_cons_of_none h⟩
      rwa [List.prefix_nil.1 hd]
    · refine .inr ⟨[], List.prefix_rfl, h, fun d' hd' hlength => ?_, found_cons_of_ne_none h⟩
      exact absurd hd'.length_le (by omega)
  | append_singleton a name ih =>
    rw [upward_concat]
    by_cases h : nameIn readers w (a ++ [name]) = .ok none
    · rw [found_cons_of_none h]
      rcases ih with ⟨hall, hfound⟩ | ⟨d, hd, hne, hlower, hfound⟩
      · refine .inl ⟨fun d hd => ?_, hfound⟩
        rcases List.prefix_concat_iff.1 hd with rfl | hd
        · exact h
        · exact hall d hd
      · refine .inr ⟨d, hd.trans (List.prefix_append _ _), hne, fun d' hd' hlength => ?_, hfound⟩
        rcases List.prefix_concat_iff.1 hd' with rfl | hd'
        · exact h
        · exact hlower d' hd' hlength
    · refine .inr ⟨a ++ [name], List.prefix_rfl, h, fun d' hd' hlength => ?_,
        found_cons_of_ne_none h⟩
      exact absurd hd'.length_le (by omega)

end Way

/-! ### Tasks that look for a file -/

section Tasks
variable (readers : Readers) (w : Workspace) (log : List Record)

theorem gives_firstFile (d : Path) : ∀ (names : List String) (log : List Record),
    Gives (firstFile (names.map d.child)) { w with log := log }
      ((firstNamed w d names).map (Option.map d.child))
  | [], log => gives_pure none { w with log := log }
  | name :: rest, log => by
    have hfirst : (firstNamed w d (name :: rest)).map (Option.map d.child) =
        seen w (d.child name) >>= fun e => if isFile e then .ok (some (d.child name)) else
          (firstNamed w d rest).map (Option.map d.child) := by
      rw [firstNamed]
      cases seen w (d.child name) with
      | error f => rfl
      | ok e =>
        rw [except_ok_bind, except_ok_bind]
        split_ifs <;> rfl
    rw [hfirst]
    refine gives_isFile_bind fun e log => ?_
    split_ifs
    · exact gives_pure _ _
    · exact gives_firstFile d rest log

theorem gives_projectHasConfig (directory : Address) :
    Gives (projectHasConfig directory readers) { w with log := log }
      (hasConfig readers w directory) := by
  refine gives_isFile_bind fun e log => ?_
  split_ifs
  · refine gives_get ?_
    have hread : Format.project.readFile readers { w with log := log } =
      Format.project.readFile readers w := rfl
    rw [hread]
    cases Format.project.readFile readers w (pathOf (directory ++ [projectName])) with
    | ok config => exact gives_pure _ _
    | error f =>
      rw [counts]
      dsimp only
      split_ifs
      · exact ⟨_, rfl⟩
      · exact gives_throw f _
  · exact gives_pure _ _

theorem gives_findIn : ∀ (directories : List Address) (log : List Record),
    Gives (findIn directories readers) { w with log := log } (found readers w directories)
  | [], log => gives_pure none { w with log := log }
  | directory :: rest, log => by
    have hfound : found readers w (directory :: rest) =
        (firstNamed w (pathOf directory) dedicatedNames).map (Option.map (pathOf directory).child) >>=
          fun p => p.elim (hasConfig readers w directory >>= fun has =>
            if has then .ok (some (pathOf (directory ++ [projectName])))
            else found readers w rest) fun p => .ok (some p) := by
      rw [found, nameIn]
      rcases firstNamed w (pathOf directory) dedicatedNames with f | _ | name
      · rfl
      · rcases hasConfig readers w directory with f | _ | _ <;> rfl
      · rfl
    rw [hfound]
    refine (gives_firstFile w (pathOf directory) dedicatedNames log).bind fun p log _ => ?_
    cases p with
    | some p => exact gives_pure _ _
    | none =>
      refine (gives_projectHasConfig readers w log directory).bind fun has log _ => ?_
      cases has with
      | true => exact gives_pure _ _
      | false => exact gives_findIn rest log

theorem gives_findAbove (start : Path) : Gives (findAbove start readers) w
    (found readers w (upward (Store.addressOf w.here start))) :=
  gives_get (gives_findIn readers w _ w.log)

/-- The home directory is looked at if there is nothing on the way up. -/
theorem gives_discover (start home : Path) : Gives (discover start home readers) w
    (found readers w (upward (Store.addressOf w.here start)) >>= fun
      | some p => .ok (some p)
      | none => (firstNamed w home dedicatedNames).map (Option.map home.child)) := by
  refine (gives_findAbove readers w start).bind fun p log _ => ?_
  cases p with
  | some p => exact gives_pure _ _
  | none => exact gives_firstFile w home dedicatedNames log

end Tasks

/-! ### When all goes well -/

/-- **When the way up has an outcome**: just if it comes to no directory that leads astray before it
comes to a file with a configuration. -/
theorem exists_found_iff {readers : Readers} {w : Workspace} {a : Address} :
    (∃ path, found readers w (upward a) = .ok path) ↔ ∀ d, d <+: a →
      (∀ d' name, d <+: d' → d' <+: a → ¬ Candidate readers w d' name) → ¬ Trap readers w d := by
  rcases found_upward_cases readers w a with ⟨hall, hfound⟩ | ⟨d, hd, hne, hlower, hfound⟩
  · exact iff_of_true ⟨none, hfound⟩ fun d hd _ => (nameIn_eq_none_iff.1 (hall d hd)).2
  · rw [hfound]
    rcases nameIn_cases readers w d with ⟨name, h, hfirst⟩ | ⟨h, -⟩ | ⟨f, h, hnone, htrap⟩
    · refine iff_of_true ⟨some (pathOf (d ++ [name])), by rw [h]; rfl⟩ fun d' hd' hbare => ?_
      -- A directory above the one with the file is not come to.
      rcases Nat.lt_or_ge d.length d'.length with hlength | hlength
      · exact (nameIn_eq_none_iff.1 (hlower d' hd' hlength)).2
      · exact absurd hfirst.candidate
          (hbare d name (List.prefix_of_prefix_length_le hd' hd hlength) hd)
    · exact absurd h hne
    · refine iff_of_false (by rw [h]; rintro ⟨_, ⟨⟩⟩) fun hwell => hwell d hd ?_ htrap
      intro d' name hdd' hd'
      rcases Nat.lt_or_eq_of_le hdd'.length_le with hlength | hlength
      · exact (nameIn_eq_none_iff.1 (hlower d' hd' hlength)).1 name
      · rw [← hdd'.eq_of_length hlength]
        exact hnone name

/-- **When all goes well**: a file is loaded or refused just if it can be looked at and its bytes, if
they can be read, do not derail their reading; and a search has an outcome just if it comes to no
directory that leads astray before it comes to a file with a configuration. -/
theorem goes_well_iff (readers : Readers) (w : Workspace) :
    (∀ p, ((∃ config, (load p readers w).1 = .ok config) ∨
        ∃ f, (load p readers w).1 = .error f ∧ f.kind = .argument) ↔
      (∃ e, w.store.look? w.here p = .ok e) ∧
        ∀ bytes format, w.store.read w.here p = .ok bytes → format? p = some format →
          ¬ Derails readers format bytes) ∧
    ∀ start, (∃ path, (findAbove start readers w).1 = .ok path) ↔
      ∀ d, d <+: Store.addressOf w.here start →
        (∀ d' name, d <+: d' → d' <+: Store.addressOf w.here start →
          ¬ Candidate readers w d' name) → ¬ Trap readers w d := by
  refine ⟨fun p => ?_, fun start => ?_⟩
  · rw [← not_strays_iff, strays_load_iff, not_or]
    refine and_congr exists_ok_iff.symm ?_
    exact ⟨fun h bytes format hread hformat hderails => h ⟨bytes, format, hread, hformat, hderails⟩,
      fun h ⟨bytes, format, hread, hformat, hderails⟩ => h bytes format hread hformat hderails⟩
  · rw [(gives_findAbove readers w start).fst]
    exact exists_found_iff

/-- A workspace with the file of a project in which the tools are a number. -/
def numberedTools : Workspace where
  store := { entries := [(["pyproject.toml"], .file (encodeText "tool = 5\n"))] }

theorem ofProject_numbered (path : Path) :
    ofProject {} path (encodeText "tool = 5\n") = .error (.noLookup "int") := by
  have htoml : Toml.read "tool = 5\n" = .ok [("tool", .int 5)] := by
    simp only [Toml.read, String.reduceToList]
    rfl
  rw [ofProject_own, htoml]
  rfl

/-- The file of a project in which the tools are a number is neither loaded nor refused, and a search
that comes to it fails. -/
theorem numbered_tools_lead_astray :
    (load ⟨"", ["pyproject.toml"]⟩ {} numberedTools).1 = .error (.noLookup "int") ∧
    (findAbove ⟨"", []⟩ {} numberedTools).1 = .error (.noLookup "int") ∧
    (Failure.noLookup "int").kind ≠ .argument := by
  refine ⟨?_, ?_, by decide⟩
  · have hread : numberedTools.store.read numberedTools.here ⟨"", ["pyproject.toml"]⟩ =
        .ok (encodeText "tool = 5\n") := rfl
    have hseen : seen numberedTools ⟨"", ["pyproject.toml"]⟩ =
        .ok (some (.file (encodeText "tool = 5\n"))) := rfl
    have hformat : format? ⟨"", ["pyproject.toml"]⟩ = some .project := by decide
    rw [(gives_loaded _ _ _).fst, loaded, hseen, hformat, except_ok_bind]
    exact (readFile_of_read hread).trans (ofProject_numbered _)
  · have hup : upward (Store.addressOf numberedTools.here ⟨"", []⟩) = [[]] := by decide
    have hname : nameIn {} numberedTools [] = .error (.noLookup "int") := by
      rw [nameIn_of_read rfl rfl, ofProject_numbered]
      rfl
    have hne : nameIn {} numberedTools [] ≠ .ok none := by
      intro h
      rw [hname] at h
      cases h
    rw [(gives_findAbove _ _ _).fst, hup, found_cons_of_ne_none hne, hname]
    rfl

/-! ### What is found -/

/-- **The nearest file with a configuration**, from a directory upward: of the directories on the way,
the one with the longer address is nearer. -/
structure Nearest (readers : Readers) (w : Workspace) (a directory : Address) (name : String) : Prop where
  above : directory <+: a
  candidate : Candidate readers w directory name
  nearest : ∀ d name', d <+: a → Candidate readers w d name' →
    d.length < directory.length ∨ d = directory ∧ rank name ≤ rank name'

/-- **A way up without a file with a configuration.** -/
def Bare (readers : Readers) (w : Workspace) (a : Address) : Prop :=
  ∀ d name, d <+: a → ¬ Candidate readers w d name

/-- **The first file below a path that holds nothing but a configuration**, by its name. -/
structure FirstBelow (w : Workspace) (directory : Path) (name : String) : Prop where
  dedicated : name ∈ dedicatedNames
  isFile : ∃ bytes, w.store.Holds w.here (directory.child name) bytes
  first : ∀ name' ∈ dedicatedNames, ∀ bytes, w.store.Holds w.here (directory.child name') bytes →
    rank name ≤ rank name'

section Found
variable {readers : Readers} {w : Workspace} {a d d' : Address} {name name' : String} {home : Path}

theorem Nearest.first (h : Nearest readers w a d name) : First readers w d name := by
  refine ⟨h.candidate, fun name' hname' => ?_⟩
  rcases h.nearest d name' h.above hname' with hlength | ⟨-, hrank⟩
  · exact absurd hlength (Nat.lt_irrefl _)
  · exact hrank

theorem Nearest.unique (h : Nearest readers w a d name) (h' : Nearest readers w a d' name') :
    d = d' ∧ name = name' := by
  have hd : d = d' := by
    rcases h.nearest d' name' h'.above h'.candidate with hlength | ⟨rfl, -⟩
    · rcases h'.nearest d name h.above h.candidate with hlength' | ⟨rfl, -⟩
      · exact absurd (Nat.lt_trans hlength hlength') (Nat.lt_irrefl _)
      · rfl
    · rfl
  subst hd
  exact ⟨rfl, h.first.unique h'.first⟩

/-- If no directory on the way up leads astray, it ends with the nearest file, or with nothing if
there is none. -/
theorem found_upward_of_no_trap (h : ∀ d, d <+: a → ¬ Trap readers w d) :
    (Bare readers w a ∧ found readers w (upward a) = .ok none) ∨
    ∃ d name, Nearest readers w a d name ∧
      found readers w (upward a) = .ok (some (pathOf (d ++ [name]))) := by
  rcases found_upward_cases readers w a with ⟨hall, hfound⟩ | ⟨d, hd, hne, hlower, hfound⟩
  · exact .inl ⟨fun d name hd => (nameIn_eq_none_iff.1 (hall d hd)).1 name, hfound⟩
  · rcases nameIn_cases readers w d with ⟨name, hname, hfirst⟩ | ⟨hname, -⟩ | ⟨f, -, -, htrap⟩
    · refine .inr ⟨d, name, ⟨hd, hfirst.candidate, fun d' name' hd' hname' => ?_⟩, ?_⟩
      · rcases Nat.lt_trichotomy d'.length d.length with hlength | hlength | hlength
        · exact .inl hlength
        · obtain rfl : d' = d :=
            (List.prefix_of_prefix_length_le hd' hd (Nat.le_of_eq hlength)).eq_of_length hlength
          exact .inr ⟨rfl, hfirst.first name' hname'⟩
        · exact absurd hname' ((nameIn_eq_none_iff.1 (hlower d' hd' hlength)).1 name')
      · rw [hfound, hname]
        rfl
    · exact absurd hname hne
    · exact absurd htrap (h d hd)

section NoTrap
variable (h : ∀ d, d <+: a → ¬ Trap readers w d)
include h

theorem exists_found : ∃ path, found readers w (upward a) = .ok path := by
  rcases found_upward_of_no_trap h with ⟨-, hfound⟩ | ⟨d, name, -, hfound⟩
  · exact ⟨_, hfound⟩
  · exact ⟨_, hfound⟩

theorem found_eq_some_iff {p : Path} : found readers w (upward a) = .ok (some p) ↔
    ∃ d name, p = pathOf (d ++ [name]) ∧ Nearest readers w a d name := by
  rcases found_upward_of_no_trap h with ⟨hbare, hfound⟩ | ⟨d, name, hnearest, hfound⟩
  · rw [hfound]
    exact iff_of_false nofun fun ⟨d, name, _, hnearest⟩ =>
      hbare d name hnearest.above hnearest.candidate
  · rw [hfound]
    constructor
    · rintro ⟨⟩
      exact ⟨d, name, rfl, hnearest⟩
    · rintro ⟨d', name', rfl, hnearest'⟩
      obtain ⟨rfl, rfl⟩ := hnearest.unique hnearest'
      rfl

theorem found_eq_none_iff : found readers w (upward a) = .ok none ↔ Bare readers w a := by
  rcases found_upward_of_no_trap h with ⟨hbare, hfound⟩ | ⟨d, name, hnearest, hfound⟩
  · exact iff_of_true hfound hbare
  · rw [hfound]
    exact iff_of_false nofun fun hbare => hbare d name hnearest.above hnearest.candidate

end NoTrap

theorem firstNamed_eq_some_iff :
    firstNamed w home dedicatedNames = .ok (some name) ↔ FirstBelow w home name := by
  cases hlook : w.store.look? w.here (home.child projectName) with
  | error fault =>
    obtain ⟨f, hf⟩ := firstNamed_dedicated_fault hlook
    rw [hf]
    refine iff_of_false nofun fun h => ?_
    obtain ⟨bytes, hfile⟩ := h.isFile
    exact exists_ok_iff.1 (look?_of_holds h.dedicated hfile) ⟨fault, hlook⟩
  | ok e =>
    rw [firstNamed_dedicated ⟨e, hlook⟩, Except.ok.injEq, find?_dedicated_eq_some_iff]
    constructor
    · rintro ⟨hmem, hfile, hfirst⟩
      exact ⟨hmem, isFileAt_iff.1 hfile,
        fun name' hname' bytes h => hfirst name' hname' (isFileAt_iff.2 ⟨bytes, h⟩)⟩
    · rintro ⟨hmem, hfile, hfirst⟩
      refine ⟨hmem, isFileAt_iff.2 hfile, fun name' hname' h => ?_⟩
      obtain ⟨bytes, h⟩ := isFileAt_iff.1 h
      exact hfirst name' hname' bytes h

theorem discover_eq_some_iff {start p : Path} :
    (discover start home readers w).1 = .ok (some p) ↔
      found readers w (upward (Store.addressOf w.here start)) = .ok (some p) ∨
      found readers w (upward (Store.addressOf w.here start)) = .ok none ∧
        ∃ name, p = home.child name ∧ FirstBelow w home name := by
  rw [(gives_discover readers w start home).fst]
  rcases found readers w (upward (Store.addressOf w.here start)) with f | _ | p'
  · exact iff_of_false nofun (by rintro (h | ⟨h, -⟩) <;> cases h)
  · rw [except_ok_bind, except_map_eq_ok]
    constructor
    · rintro ⟨name, hname, h⟩
      obtain ⟨name, rfl, rfl⟩ := Option.map_eq_some_iff.1 h
      exact .inr ⟨rfl, name, rfl, firstNamed_eq_some_iff.1 hname⟩
    · rintro (h | ⟨-, name, rfl, h⟩)
      · cases h
      · exact ⟨some name, firstNamed_eq_some_iff.2 h, rfl⟩
  · exact ⟨.inl, by rintro (h | ⟨⟨⟩, -⟩); exact h⟩

theorem discover_eq_none_iff {start : Path} : (discover start home readers w).1 = .ok none ↔
    found readers w (upward (Store.addressOf w.here start)) = .ok none ∧
      ∀ name ∈ dedicatedNames,
        ∃ e, w.store.look? w.here (home.child name) = .ok e ∧ isFile e = false := by
  rw [(gives_discover readers w start home).fst, ← firstNamed_eq_none_iff]
  rcases found readers w (upward (Store.addressOf w.here start)) with f | _ | p'
  · exact iff_of_false nofun fun h => nomatch h.1
  · rw [except_ok_bind, except_map_eq_ok]
    constructor
    · rintro ⟨name, hname, h⟩
      rw [Option.map_eq_none_iff.1 h] at hname
      exact ⟨rfl, hname⟩
    · exact fun h => ⟨none, h.2, rfl⟩
  · exact iff_of_false nofun fun h => nomatch h.1

theorem format?_project (d : Address) : format? (pathOf (d ++ [projectName])) = some .project := by
  have hname : (pathOf (d ++ [projectName])).name = projectName := by
    rw [Path.name, pathOf, List.getLast?_append_cons]
    rfl
  rw [format?, hname]
  exact if_pos (by decide)

/-- **The nearest file counts.** If each file of a project on the way up is loaded or refused, a search
has an outcome: it finds the nearest file with a configuration, and nothing just if there is none; and
then the first file of the home directory that holds nothing but a configuration counts, if there is
one. -/
theorem nearest_found {start : Path}
    (hreads : ∀ d, d <+: Store.addressOf w.here start →
      (∃ config, (load (pathOf (d ++ [projectName])) readers w).1 = .ok config) ∨
        ∃ f, (load (pathOf (d ++ [projectName])) readers w).1 = .error f ∧ f.kind = .argument)
    (home : Path) :
    (∃ path, (findAbove start readers w).1 = .ok path) ∧
    (∀ p, (findAbove start readers w).1 = .ok (some p) ↔ ∃ d name, p = pathOf (d ++ [name]) ∧
      Nearest readers w (Store.addressOf w.here start) d name) ∧
    ((findAbove start readers w).1 = .ok none ↔
      Bare readers w (Store.addressOf w.here start)) ∧
    (∀ p, (discover start home readers w).1 = .ok (some p) ↔
      (∃ d name, p = pathOf (d ++ [name]) ∧
        Nearest readers w (Store.addressOf w.here start) d name) ∨
      Bare readers w (Store.addressOf w.here start) ∧
        ∃ name, p = home.child name ∧ FirstBelow w home name) ∧
    ((discover start home readers w).1 = .ok none ↔
      Bare readers w (Store.addressOf w.here start) ∧ ∀ name ∈ dedicatedNames,
        ∃ e, w.store.look? w.here (home.child name) = .ok e ∧ isFile e = false) := by
  have htrap : ∀ d, d <+: Store.addressOf w.here start → ¬ Trap readers w d := by
    intro d hd htrap
    refine not_strays_iff.2 (hreads d hd) (strays_load_iff.2 (htrap.imp_right ?_))
    rintro ⟨bytes, hread, hderails⟩
    exact ⟨bytes, .project, hread, format?_project d, hderails⟩
  rw [(gives_findAbove readers w start).fst]
  refine ⟨exists_found htrap, fun p => found_eq_some_iff htrap, found_eq_none_iff htrap,
    fun p => ?_, ?_⟩
  · rw [discover_eq_some_iff, found_eq_some_iff htrap, found_eq_none_iff htrap]
  · rw [discover_eq_none_iff, found_eq_none_iff htrap]

end Found

/-- Three directories below each other, each with the file of a project: that of the lowest has nothing
for this program, that of the next is no document, and that of the highest has a configuration. -/
def threeProjects : Workspace where
  store := {
    entries := [([".md2nexus.json"], .file []), (["a"], .directory),
      (["a", "pyproject.toml"], .file (encodeText "tool.md2nexus.nexus.heading_size = 2\n")),
      (["a", "b"], .directory), (["a", "b", "pyproject.toml"], .file (encodeText "tool =\n")),
      (["a", "b", "c"], .directory),
      (["a", "b", "c", "pyproject.toml"], .file (encodeText "[tool.other]\n"))] }
  here := ["a", "b", "c"]

theorem ofProject_highest (path : Path) :
    ofProject {} path (encodeText "tool.md2nexus.nexus.heading_size = 2\n") =
      .ok [("nexus", .dict [("heading_size", .int 2)])] := by
  have htoml : Toml.read "tool.md2nexus.nexus.heading_size = 2\n" =
      .ok [("tool", .dict [("md2nexus", .dict [("nexus", .dict [("heading_size", .int 2)])])])] := by
    simp only [Toml.read, String.reduceToList]
    rfl
  rw [ofProject_own, htoml]
  rfl

theorem ofProject_middle (path : Path) :
    ofProject {} path (encodeText "tool =\n") = .error (Fault.project path .value).failure := by
  have htoml : Toml.read "tool =\n" = .error .value := by
    simp only [Toml.read, String.reduceToList]
    rfl
  rw [ofProject_own, htoml]
  rfl

theorem ofProject_lowest (path : Path) :
    ofProject {} path (encodeText "[tool.other]\n") = .ok [] := by
  have htoml : Toml.read "[tool.other]\n" = .ok [("tool", .dict [("other", .dict [])])] := by
    simp only [Toml.read, String.reduceToList]
    rfl
  rw [ofProject_own, htoml]
  rfl

theorem load_of_read {bytes : List UInt8} {w : Workspace} {d : Address}
    (hread : w.store.read w.here (pathOf (d ++ [projectName])) = .ok bytes) :
    (load (pathOf (d ++ [projectName])) {} w).1 =
      ofProject {} (pathOf (d ++ [projectName])) bytes := by
  have hseen : seen w (pathOf (d ++ [projectName])) = .ok (some (.file bytes)) :=
    seen_eq_ok.2 (Store.holds_of_read hread)
  rw [(gives_loaded _ _ _).fst, loaded, hseen, format?_project]
  exact readFile_of_read hread

theorem three_projects_read {d : Address} (hd : d <+: ["a", "b", "c"]) :
    (∃ config, (load (pathOf (d ++ [projectName])) {} threeProjects).1 = .ok config) ∨
      ∃ f, (load (pathOf (d ++ [projectName])) {} threeProjects).1 = .error f ∧
        f.kind = .argument := by
  simp only [List.prefix_cons_iff, List.prefix_nil] at hd
  rcases hd with rfl | ⟨_, rfl, rfl | ⟨_, rfl, rfl | ⟨_, rfl, rfl⟩⟩⟩
  · exact .inr ⟨_, (gives_loaded _ _ _).fst.trans rfl, rfl⟩
  · exact .inl ⟨_, (load_of_read rfl).trans (ofProject_highest _)⟩
  · exact .inr ⟨_, (load_of_read rfl).trans (ofProject_middle _), rfl⟩
  · exact .inl ⟨_, (load_of_read rfl).trans (ofProject_lowest _)⟩

theorem nearest_found_three_projects :
    (∀ d, d <+: Store.addressOf threeProjects.here ⟨"", []⟩ →
      (∃ config, (load (pathOf (d ++ [projectName])) {} threeProjects).1 = .ok config) ∨
        ∃ f, (load (pathOf (d ++ [projectName])) {} threeProjects).1 = .error f ∧
          f.kind = .argument) ∧
    (findAbove ⟨"", []⟩ {} threeProjects).1 = .ok (some ⟨"/", ["a", "pyproject.toml"]⟩) ∧
    ∃ d name, (⟨"/", ["a", "pyproject.toml"]⟩ : Path) = pathOf (d ++ [name]) ∧
      Nearest {} threeProjects ["a", "b", "c"] d name := by
  have hhere : Store.addressOf threeProjects.here ⟨"", []⟩ = ["a", "b", "c"] := rfl
  have hreads : ∀ d, d <+: Store.addressOf threeProjects.here ⟨"", []⟩ → _ :=
    fun d hd => three_projects_read (hhere ▸ hd)
  have hlowest : nameIn {} threeProjects ["a", "b", "c"] = .ok none := by
    rw [nameIn_of_read rfl rfl, ofProject_lowest]
    rfl
  have hmiddle : nameIn {} threeProjects ["a", "b"] = .ok none := by
    rw [nameIn_of_read rfl rfl, ofProject_middle]
    rfl
  have hhighest : nameIn {} threeProjects ["a"] = .ok (some projectName) := by
    rw [nameIn_of_read rfl rfl, ofProject_highest]
    rfl
  have hfound : (findAbove ⟨"", []⟩ {} threeProjects).1 =
      .ok (some ⟨"/", ["a", "pyproject.toml"]⟩) := by
    have hup : upward ["a", "b", "c"] = [["a", "b", "c"], ["a", "b"], ["a"], []] := by decide
    have hne : nameIn {} threeProjects ["a"] ≠ .ok none := by
      intro h
      rw [hhighest] at h
      cases h
    rw [(gives_findAbove _ _ _).fst, hhere, hup, found_cons_of_none hlowest,
      found_cons_of_none hmiddle, found_cons_of_ne_none hne, hhighest]
    rfl
  refine ⟨hreads, hfound, ?_⟩
  have hnearest := ((nearest_found hreads ⟨"/", []⟩).2.1 _).1 hfound
  rwa [hhere] at hnearest

end Bulletin.Proofs.ConfigFile.Discovery
