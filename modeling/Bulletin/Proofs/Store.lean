import Bulletin.Proofs.Runs
import Bulletin.Store
import Mathlib.Data.List.Basic
import Mathlib.Tactic.SplitIfs

/-! # Writing to a store

A file that is written takes the place of a file or of nothing, below a directory that is there. So
all directories stay, all paths that lead somewhere lead to the same address, and a file under another
name holds what it held. What is barred is the same before and after.

* `write_eq_ok`: what a write does.
* `holds_of_write`: the file that is written holds its bytes.
* `Holds.of_write_of_ne`: files of other names are not touched.
* `Writable.write`: where a file can be written.
* `made_of_makeBelow`: what differs when a directory is made, or when a fault ends its making.
* `make_again`, `makeBelow_of_fault`: a directory is made once, and what has kept one from being made
  does so again.
* `Grows.childNames`: the names in a directory stay in their order. -/

namespace Bulletin.Store

open Bulletin.Proofs.Runs

variable {s s' : Store} {a b here : Address} {e : Entry} {p q : Path} {bytes : List UInt8}

/-! ### Entries -/

theorem lookup_setEntry_self (a : Address) (e : Entry) :
    ∀ es : List (Address × Entry), List.lookup a (setEntry a e es) = some e
  | [] => by simp [setEntry]
  | (b, old) :: es => by
    rw [setEntry]
    by_cases h : b = a
    · simp [h]
    · have hab : (a == b) = false := by simpa using Ne.symm h
      rw [if_neg h, List.lookup_cons, hab]
      exact lookup_setEntry_self a e es

theorem lookup_setEntry_of_ne (h : b ≠ a) (e : Entry) :
    ∀ es : List (Address × Entry), List.lookup b (setEntry a e es) = List.lookup b es
  | [] => by
    have hba : (b == a) = false := by simpa using h
    rw [setEntry, List.lookup_cons, hba]
  | (c, old) :: es => by
    rw [setEntry]
    by_cases hc : c = a
    · have hbc : (b == c) = false := by simpa [hc] using h
      rw [if_pos hc, List.lookup_cons, List.lookup_cons, hbc]
    · rw [if_neg hc, List.lookup_cons, List.lookup_cons, lookup_setEntry_of_ne h e es]

theorem get?_set_self (h : a ≠ []) : (s.set a e).get? a = some e := by
  have ha : ¬ a.isEmpty = true := by simpa using h
  rw [get?, if_neg ha]
  exact lookup_setEntry_self a e s.entries

theorem get?_set_of_ne (h : b ≠ a) : (s.set a e).get? b = s.get? b := by
  unfold get?
  rw [set, lookup_setEntry_of_ne h]

/-! ### Paths -/

/-- All directories of a store are directories of another one, in which the same is barred. -/
structure Keeps (s s' : Store) : Prop where
  bars : s'.bars = s.bars
  directory : ∀ a, s.get? a = some .directory → s'.get? a = some .directory

theorem Keeps.refl (s : Store) : s.Keeps s := ⟨rfl, fun _ h => h⟩

theorem Keeps.trans {s'' : Store} (h : s.Keeps s') (h' : s'.Keeps s'') : s.Keeps s'' :=
  ⟨h'.bars.trans h.bars, fun a ha => h'.directory a (h.directory a ha)⟩

theorem hindrance?_eq_none {name : String} : s.hindrance? a name = none ↔
    s.get? a = some .directory ∧ s.bars .pass a = false ∧ name.utf8ByteSize ≤ nameLimit := by
  unfold hindrance?
  cases s.get? a with
  | none => exact ⟨nofun, nofun⟩
  | some entry =>
    cases entry with
    | file bytes => exact ⟨nofun, nofun⟩
    | directory => cases s.bars .pass a <;> simp

theorem Keeps.hindrance? (hk : s.Keeps s') {name : String} (h : s.hindrance? a name = none) :
    s'.hindrance? a name = none := by
  obtain ⟨hd, hpass, hname⟩ := hindrance?_eq_none.1 h
  exact hindrance?_eq_none.2 ⟨hk.directory a hd, hk.bars ▸ hpass, hname⟩

theorem walk_cons_eq_ok {name : String} {names : List String} :
    s.walk a (name :: names) = .ok b ↔
      s.hindrance? a name = none ∧ s.walk (next a name) names = .ok b := by
  rw [walk]
  cases s.hindrance? a name with
  | none => exact ⟨fun h => ⟨rfl, h⟩, fun h => h.2⟩
  | some fault => exact ⟨nofun, nofun⟩

theorem Keeps.walk (hk : s.Keeps s') : ∀ {names : List String} {a b : Address},
    s.walk a names = .ok b → s'.walk a names = .ok b
  | [], _, _, h => h
  | name :: names, a, b, h => by
    obtain ⟨ha, h⟩ := walk_cons_eq_ok.1 h
    exact walk_cons_eq_ok.2 ⟨hk.hindrance? ha, hk.walk h⟩

theorem Keeps.locate (hk : s.Keeps s') (h : s.locate here p = .ok a) : s'.locate here p = .ok a :=
  hk.walk h

theorem walk_append_eq (s : Store) (more : List String) : ∀ (names : List String) (a : Address),
    s.walk a (names ++ more) = s.walk a names >>= fun b => s.walk b more
  | [], a => rfl
  | name :: names, a => by
    rw [List.cons_append, walk, walk]
    cases s.hindrance? a name with
    | none => exact walk_append_eq s more names _
    | some fault => rfl

theorem walk_append {names more : List String} (h : s.walk a names = .ok b) :
    s.walk a (names ++ more) = s.walk b more := by
  rw [walk_append_eq, h, except_ok_bind]

theorem walk_concat {name : String} : ∀ {names : List String} {a b : Address},
    s.walk a (names ++ [name]) = .ok b →
      ∃ c, s.walk a names = .ok c ∧ s.hindrance? c name = none ∧ b = next c name
  | [], a, b, h => by
    obtain ⟨hstep, hb⟩ := walk_cons_eq_ok.1 h
    exact ⟨a, rfl, hstep, (Except.ok.inj hb).symm⟩
  | n :: names, a, b, h => by
    obtain ⟨ha, h⟩ := walk_cons_eq_ok.1 h
    obtain ⟨c, hc, hb⟩ := walk_concat h
    exact ⟨c, walk_cons_eq_ok.2 ⟨ha, hc⟩, hb⟩

/-- An address that can be reached: nothing hinders the step to its last name. -/
def Reaches (s : Store) (a : Address) : Prop :=
  ∃ c name, a = c ++ [name] ∧ s.hindrance? c name = none

theorem Keeps.reaches (hk : s.Keeps s') (h : s.Reaches a) : s'.Reaches a := by
  obtain ⟨c, name, ha, hstep⟩ := h
  exact ⟨c, name, ha, hk.hindrance? hstep⟩

theorem next_of_ne {name : String} (h : name ≠ "..") (a : Address) : next a name = a ++ [name] :=
  if_neg h

theorem locate_child {name : String} (hn : name ≠ "..") (h : s.locate here (p.child name) = .ok a) :
    ∃ c, s.locate here p = .ok c ∧ s.hindrance? c name = none ∧ a = c ++ [name] := by
  obtain ⟨c, hc, hstep, ha⟩ := walk_concat h
  exact ⟨c, hc, hstep, ha.trans (next_of_ne hn c)⟩

theorem reaches_of_locate {name : String} (hn : name ≠ "..")
    (h : s.locate here (p.child name) = .ok a) : s.Reaches a := by
  obtain ⟨c, -, hstep, ha⟩ := locate_child hn h
  exact ⟨c, name, ha, hstep⟩

theorem look?_eq_ok_some : s.look? here p = .ok (some e) ↔
    ∃ a, s.locate here p = .ok a ∧ s.get? a = some e := by
  unfold look?
  cases s.locate here p with
  | error fault => cases fault <;> exact ⟨nofun, nofun⟩
  | ok a =>
    constructor
    · exact fun h => ⟨a, rfl, Except.ok.inj h⟩
    · rintro ⟨_, ⟨⟩, h⟩
      exact congrArg _ h

/-- **Names that are not too long are alike to a look**: whether it can be told what stands at one in a
directory does not depend on the name. -/
theorem look?_child_error_iff {m n : String} (hm : m.utf8ByteSize ≤ nameLimit)
    (hn : n.utf8ByteSize ≤ nameLimit) {fault : FileFault} :
    s.look? here (p.child m) = .error fault ↔ s.look? here (p.child n) = .error fault := by
  have hlocate : ∀ name, s.locate here (p.child name) = s.locate here p >>= fun b => s.walk b [name] :=
    fun name => walk_append_eq s [name] p.names _
  have hstep : ∀ b, s.hindrance? b m = s.hindrance? b n := fun b => by
    unfold hindrance?
    rw [if_neg (Nat.not_lt.2 hm), if_neg (Nat.not_lt.2 hn)]
  unfold look?
  rw [hlocate, hlocate]
  cases s.locate here p with
  | error why => exact Iff.rfl
  | ok b =>
    simp only [except_ok_bind, walk, hstep]
    cases s.hindrance? b n with
    | none => simp
    | some why => exact Iff.rfl

/-- **The file at a path holds bytes.** -/
def Holds (s : Store) (here : Address) (p : Path) (bytes : List UInt8) : Prop :=
  s.look? here p = .ok (some (.file bytes))

theorem holds_iff : s.Holds here p bytes ↔
    ∃ a, s.locate here p = .ok a ∧ s.get? a = some (.file bytes) := look?_eq_ok_some

theorem Holds.unique {bytes' : List UInt8} (h : s.Holds here p bytes) (h' : s.Holds here p bytes') :
    bytes = bytes' := by
  have hsame := h.symm.trans h'
  rwa [Except.ok.injEq, Option.some.injEq, Entry.file.injEq] at hsame

/-! ### Reading and writing -/

theorem read_of_locate (ha : s.locate here p = .ok a) (hg : s.get? a = some (.file bytes)) :
    s.read here p = if s.bars .read a then .error .denied else .ok bytes := by
  rw [read, ha, except_ok_bind, hg]
  rfl

theorem holds_of_read (h : s.read here p = .ok bytes) : s.Holds here p bytes := by
  obtain ⟨a, ha, h⟩ := except_bind_eq_ok.1 h
  refine holds_iff.2 ⟨a, ha, ?_⟩
  cases hg : s.get? a with
  | none =>
    rw [hg] at h
    cases h
  | some entry =>
    rw [hg] at h
    dsimp only at h
    split_ifs at h
    cases entry with
    | directory => cases h
    | file old => rw [Except.ok.inj h]

theorem Keeps.read_eq (hk : s.Keeps s') (h : s.Holds here p bytes) (h' : s'.Holds here p bytes) :
    s.read here p = s'.read here p := by
  obtain ⟨a, ha, hg⟩ := holds_iff.1 h
  obtain ⟨b, hb, hg'⟩ := holds_iff.1 h'
  obtain rfl : a = b := Except.ok.inj ((hk.locate ha).symm.trans hb)
  rw [read_of_locate ha hg, read_of_locate hb hg', hk.bars]

/-- An address at which a file may be written: writing is not barred, and there is no directory. -/
structure WritableAt (s : Store) (here : Address) (p : Path) (a : Address) : Prop where
  locate : s.locate here p = .ok a
  permitted : s.bars .write a = false
  noDirectory : s.get? a ≠ some .directory

/-- A path at which a file may be written. -/
def Writable (s : Store) (here : Address) (p : Path) : Prop := ∃ a, s.WritableAt here p a

theorem WritableAt.ne_nil (h : s.WritableAt here p a) : a ≠ [] := by
  rintro rfl
  exact h.noDirectory rfl

theorem target_of_file (ha : s.locate here p = .ok a) (hg : s.get? a = some (.file bytes)) :
    s.target here p = if s.bars .write a then .error .denied else .ok a := by
  rw [target, ha, except_ok_bind]
  dsimp only
  rw [hg]
  rfl

theorem target_of_none (ha : s.locate here p = .ok a) (hg : s.get? a = none)
    (hd : s.get? a.dropLast = some .directory) :
    s.target here p = if s.bars .write a then .error .denied else .ok a := by
  rw [target, ha, except_ok_bind]
  dsimp only
  rw [hg]
  dsimp only
  rw [hd]
  rfl

/-- **A file is written only where it may be written.** -/
theorem WritableAt.of_target (h : s.target here p = .ok a) : s.WritableAt here p a := by
  obtain ⟨c, hc, h'⟩ := except_bind_eq_ok.1 h
  have hpermitted : (if s.bars .write c then .error .denied else .ok c : Except FileFault Address) =
      .ok a → s.get? c ≠ some .directory → s.WritableAt here p a := by
    intro h hd
    split_ifs at h with hw
    cases h
    exact ⟨hc, by simpa using hw, hd⟩
  dsimp only at h'
  cases hg : s.get? c with
  | none =>
    rw [hg] at h'
    dsimp only at h'
    cases hd : s.get? c.dropLast with
    | none =>
      rw [hd] at h'
      cases h'
    | some entry =>
      cases entry with
      | file old =>
        rw [hd] at h'
        cases h'
      | directory =>
        rw [target_of_none hc hg hd] at h
        exact hpermitted h (by rw [hg]; exact nofun)
  | some entry =>
    cases entry with
    | directory =>
      rw [hg] at h'
      cases h'
    | file old =>
      rw [target_of_file hc hg] at h
      exact hpermitted h (by rw [hg]; exact nofun)

/-- **A file is written wherever a name leads** and it may be written: the last step to the name is
taken from a directory. -/
theorem WritableAt.target {name : String} (h : s.WritableAt here (p.child name) a)
    (hn : name ≠ "..") : s.target here (p.child name) = .ok a := by
  obtain ⟨c, -, hstep, hac⟩ := locate_child hn h.locate
  have hparent : s.get? a.dropLast = some .directory := by
    rw [hac, List.dropLast_concat]
    exact (hindrance?_eq_none.1 hstep).1
  cases hg : s.get? a with
  | none => rw [target_of_none h.locate hg hparent, h.permitted, if_neg Bool.false_ne_true]
  | some entry =>
    cases entry with
    | directory => exact absurd hg h.noDirectory
    | file old => rw [target_of_file h.locate hg, h.permitted, if_neg Bool.false_ne_true]

/-- **A write** sets a file at an address at which it may be written. -/
theorem write_eq_ok (h : s.write here p bytes = .ok s') :
    ∃ a, s.WritableAt here p a ∧ s' = s.set a (.file bytes) := by
  obtain ⟨a, ha, h⟩ := except_bind_eq_ok.1 h
  exact ⟨a, .of_target ha, (Except.ok.inj h).symm⟩

theorem WritableAt.write {name : String} (h : s.WritableAt here (p.child name) a) (hn : name ≠ "..")
    (bytes : List UInt8) : s.write here (p.child name) bytes = .ok (s.set a (.file bytes)) := by
  rw [Store.write, h.target hn]
  rfl

theorem Writable.write {name : String} (h : s.Writable here (p.child name)) (hn : name ≠ "..")
    (bytes : List UInt8) : ∃ s', s.write here (p.child name) bytes = .ok s' := by
  obtain ⟨a, ha⟩ := h
  exact ⟨_, ha.write hn bytes⟩

theorem writable_of_write (h : s.write here p bytes = .ok s') : s.Writable here p := by
  obtain ⟨a, ha, -⟩ := write_eq_ok h
  exact ⟨a, ha⟩

theorem keeps_set (ha : s.get? a ≠ some .directory) : s.Keeps (s.set a e) := by
  refine ⟨rfl, fun b hb => ?_⟩
  have hne : b ≠ a := by
    rintro rfl
    exact ha hb
  rw [get?_set_of_ne hne, hb]

/-- **A write keeps all directories.** -/
theorem keeps_of_write (h : s.write here p bytes = .ok s') : s.Keeps s' := by
  obtain ⟨a, ha, rfl⟩ := write_eq_ok h
  exact keeps_set ha.noDirectory

/-- **A write changes one entry**: where its path leads, it puts a file with its bytes. -/
theorem get?_of_write (h : s.write here p bytes = .ok s') : ∃ a, s.locate here p = .ok a ∧
    s'.get? a = some (.file bytes) ∧ ∀ b, b ≠ a → s'.get? b = s.get? b := by
  obtain ⟨a, ha, rfl⟩ := write_eq_ok h
  exact ⟨a, ha.locate, get?_set_self ha.ne_nil, fun b hb => get?_set_of_ne hb⟩

/-- **A file that is written holds its bytes.** -/
theorem holds_of_write (h : s.write here p bytes = .ok s') : s'.Holds here p bytes := by
  obtain ⟨a, ha, hfile, -⟩ := get?_of_write h
  exact holds_iff.2 ⟨a, (keeps_of_write h).locate ha, hfile⟩

/-- **A file of another name is not touched** by a write. -/
theorem Holds.of_write_of_ne {m n : String} {old : List UInt8} (hm : m ≠ "..") (hn : n ≠ "..")
    (hne : m ≠ n) (h : s.write here (p.child m) bytes = .ok s')
    (hq : s.Holds here (q.child n) old) : s'.Holds here (q.child n) old := by
  have hk := keeps_of_write h
  obtain ⟨a, ha, -, hrest⟩ := get?_of_write h
  obtain ⟨b, hb, hg⟩ := holds_iff.1 hq
  obtain ⟨c, -, -, rfl⟩ := locate_child hm ha
  obtain ⟨d, -, -, rfl⟩ := locate_child hn hb
  have hab : d ++ [n] ≠ c ++ [m] := fun heq => hne (List.append_singleton_inj.1 heq).2.symm
  exact holds_iff.2 ⟨_, hk.locate hb, by rw [hrest _ hab, hg]⟩

/-! ### Stores with the same directories -/

/-- Two stores with the same directories, so that the same paths lead to the same addresses. -/
def SameDirectories (s s' : Store) : Prop := s.Keeps s' ∧ s'.Keeps s

theorem SameDirectories.refl (s : Store) : s.SameDirectories s := ⟨.refl s, .refl s⟩

theorem SameDirectories.symm (h : s.SameDirectories s') : s'.SameDirectories s := ⟨h.2, h.1⟩

theorem SameDirectories.trans {s'' : Store} (h : s.SameDirectories s')
    (h' : s'.SameDirectories s'') : s.SameDirectories s'' := ⟨h.1.trans h'.1, h'.2.trans h.2⟩

theorem SameDirectories.locate_iff (h : s.SameDirectories s') :
    s.locate here p = .ok a ↔ s'.locate here p = .ok a :=
  ⟨h.1.locate, h.2.locate⟩

theorem sameDirectories_set (ha : s.get? a ≠ some .directory) :
    s.SameDirectories (s.set a (.file bytes)) := by
  refine ⟨keeps_set ha, rfl, fun b hb => ?_⟩
  by_cases hba : b = a
  · subst hba
    have hroot : b ≠ [] := by
      rintro rfl
      exact ha rfl
    rw [get?_set_self hroot] at hb
    cases hb
  · rwa [get?_set_of_ne hba] at hb

theorem sameDirectories_of_write (h : s.write here p bytes = .ok s') : s.SameDirectories s' := by
  obtain ⟨a, ha, rfl⟩ := write_eq_ok h
  exact sameDirectories_set ha.noDirectory

theorem SameDirectories.writableAt_iff (h : s.SameDirectories s') :
    s.WritableAt here p a ↔ s'.WritableAt here p a := by
  have hmove : ∀ {s s' : Store}, s.SameDirectories s' → s.WritableAt here p a →
      s'.WritableAt here p a := fun h hw =>
    ⟨h.1.locate hw.locate, h.1.bars ▸ hw.permitted, fun hd => hw.noDirectory (h.2.directory a hd)⟩
  exact ⟨hmove h, hmove h.symm⟩

theorem SameDirectories.writable (h : s.SameDirectories s') (hw : s.Writable here p) :
    s'.Writable here p := hw.imp fun _ => h.writableAt_iff.1

/-! ### Making directories -/

section Make
variable {name : String}

/-- **A step for which a directory may be made** is taken where nothing hinders it: there is something
to go on to, or there is nothing and a directory is set. -/
theorem makeNext_eq_ok : s.makeNext a name = .ok s' ↔ s.hindrance? a name = none ∧
    ((s.get? (next a name)).isSome ∧ s' = s ∨ s.get? (next a name) = none ∧ name ≠ ".." ∧
      s.bars .write (next a name) = false ∧ s' = s.set (next a name) .directory) := by
  unfold makeNext
  cases s.hindrance? a name with
  | some fault => exact ⟨nofun, nofun⟩
  | none =>
    cases s.get? (next a name) with
    | some entry =>
      constructor
      · exact fun h => ⟨rfl, .inl ⟨rfl, (Except.ok.inj h).symm⟩⟩
      · rintro ⟨-, ⟨-, rfl⟩ | ⟨⟨⟩, -⟩⟩
        rfl
    | none =>
      by_cases hn : name = ".."
      · simp [hn]
      · cases s.bars .write (next a name) with
        | true => simp [hn]
        | false => simp [hn, eq_comm]

theorem makeNext_again (h : s.hindrance? a name = none) (hb : s.get? (next a name) = some e) :
    s.makeNext a name = .ok s := makeNext_eq_ok.2 ⟨h, .inl ⟨by rw [hb]; rfl, rfl⟩⟩

theorem get?_of_makeNext (h : s.makeNext a name = .ok s') :
    (∀ b e, s.get? b = some e → s'.get? b = some e) ∧ ∃ e, s'.get? (next a name) = some e := by
  obtain ⟨-, ⟨hsome, rfl⟩ | ⟨hnone, -, -, rfl⟩⟩ := makeNext_eq_ok.1 h
  · exact ⟨fun _ _ h => h, Option.isSome_iff_exists.1 hsome⟩
  · have hroot : next a name ≠ [] := by
      intro hnil
      rw [hnil] at hnone
      cases hnone
    refine ⟨fun b e hb => ?_, _, get?_set_self hroot⟩
    have hne : b ≠ next a name := by
      rintro rfl
      rw [hnone] at hb
      cases hb
    rw [get?_set_of_ne hne, hb]

theorem keeps_of_makeNext (h : s.makeNext a name = .ok s') : s.Keeps s' := by
  refine ⟨?_, fun b => (get?_of_makeNext h).1 b .directory⟩
  obtain ⟨-, ⟨-, rfl⟩ | ⟨-, -, -, rfl⟩⟩ := makeNext_eq_ok.1 h <;> rfl

end Make

theorem makeBelow_cons_ok {name : String} {names : List String} (h : s.makeNext a name = .ok s') :
    s.makeBelow a (name :: names) = s'.makeBelow (next a name) names := by
  rw [makeBelow, h]

theorem makeBelow_cons_error {name : String} {names : List String} {fault : FileFault}
    (h : s.makeNext a name = .error fault) : s.makeBelow a (name :: names) = (s, some fault) := by
  rw [makeBelow, h]

/-- **What is there stays** when directories are made. -/
theorem get?_of_makeBelow : ∀ (names : List String) (s : Store) (a : Address) {b : Address}
    {e : Entry}, s.get? b = some e → (s.makeBelow a names).1.get? b = some e
  | [], _, _, _, _, h => h
  | name :: names, s, a, b, e, h => by
    cases hstep : s.makeNext a name with
    | error fault => rwa [makeBelow_cons_error hstep]
    | ok t =>
      rw [makeBelow_cons_ok hstep]
      exact get?_of_makeBelow names t _ ((get?_of_makeNext hstep).1 b e h)

/-- **Making directories keeps those that there are.** -/
theorem keeps_makeBelow : ∀ (names : List String) (s : Store) (a : Address),
    s.Keeps (s.makeBelow a names).1
  | [], s, _ => .refl s
  | name :: names, s, a => by
    cases hstep : s.makeNext a name with
    | error fault =>
      rw [makeBelow_cons_error hstep]
      exact .refl s
    | ok t =>
      rw [makeBelow_cons_ok hstep]
      exact (keeps_of_makeNext hstep).trans (keeps_makeBelow names t _)

/-- **What differs when directories are made** was missing, is one of the directories on the way, and
can be reached. -/
theorem made_of_makeBelow : ∀ (names : List String) (s : Store) (a : Address) {b : Address},
    (s.makeBelow a names).1.get? b ≠ s.get? b → s.get? b = none ∧
      (s.makeBelow a names).1.get? b = some .directory ∧ (∃ k, b = normal a (names.take k)) ∧
      (s.makeBelow a names).1.Reaches b
  | [], _, _, _, h => absurd rfl h
  | name :: names, s, a, b, h => by
    cases hstep : s.makeNext a name with
    | error fault =>
      rw [makeBelow_cons_error hstep] at h
      exact absurd rfl h
    | ok t =>
      rw [makeBelow_cons_ok hstep] at h ⊢
      have hkeeps := (keeps_of_makeNext hstep).trans (keeps_makeBelow names t (next a name))
      by_cases hb : (t.makeBelow (next a name) names).1.get? b = t.get? b
      · -- the first step has made the directory
        rw [hb] at h ⊢
        obtain ⟨hfree, ⟨-, rfl⟩ | ⟨hnone, hup, -, rfl⟩⟩ := makeNext_eq_ok.1 hstep
        · exact absurd rfl h
        · have hne : b = next a name := by
            by_contra hne
            exact h (get?_set_of_ne hne)
          subst hne
          have hroot : next a name ≠ [] := by
            intro hnil
            rw [hnil] at hnone
            cases hnone
          exact ⟨hnone, get?_set_self hroot, ⟨1, rfl⟩, a, name, next_of_ne hup a,
            hkeeps.hindrance? hfree⟩
      · obtain ⟨hnone, hdir, ⟨k, hk⟩, hreach⟩ := made_of_makeBelow names t _ hb
        refine ⟨?_, hdir, ⟨k + 1, hk⟩, hreach⟩
        cases hs : s.get? b with
        | none => rfl
        | some e =>
          rw [(get?_of_makeNext hstep).1 b e hs] at hnone
          cases hnone

theorem directory_of_makeBelow : ∀ {names : List String} {s : Store} {a : Address},
    (s.makeBelow a names).2 = none → s.get? a = some .directory
  | [], s, a, h => by
    unfold makeBelow at h
    dsimp only at h
    split_ifs at h with hdir
    exact eq_of_beq hdir
  | name :: names, s, a, h => by
    cases hstep : s.makeNext a name with
    | error fault =>
      rw [makeBelow_cons_error hstep] at h
      cases h
    | ok t => exact (hindrance?_eq_none.1 (makeNext_eq_ok.1 hstep).1).1

/-- **Directories that have been made are not made again**, as long as they stay. -/
theorem makeBelow_again {s₂ : Store} : ∀ {names : List String} {s : Store} {a : Address},
    (s.makeBelow a names).2 = none → (s.makeBelow a names).1.Keeps s₂ →
      s₂.makeBelow a names = (s₂, none)
  | [], s, a, h, hk => by
    have hdir := hk.directory a (directory_of_makeBelow h)
    rw [makeBelow, if_pos (by rw [isDirectory, hdir]; rfl)]
  | name :: names, s, a, h, hk => by
    cases hstep : s.makeNext a name with
    | error fault =>
      rw [makeBelow_cons_error hstep] at h
      cases h
    | ok t =>
      rw [makeBelow_cons_ok hstep] at h hk
      have hkeeps : s.Keeps s₂ :=
        ((keeps_of_makeNext hstep).trans (keeps_makeBelow names t _)).trans hk
      have hb := ((keeps_makeBelow names t _).trans hk).directory _ (directory_of_makeBelow h)
      rw [makeBelow_cons_ok (makeNext_again (hkeeps.hindrance? (makeNext_eq_ok.1 hstep).1) hb)]
      exact makeBelow_again h hk

/-- **What has kept a directory from being made does so again**, and those above it that have been
made are not made again. -/
theorem makeBelow_of_fault : ∀ {names : List String} {s t : Store} {a : Address} {fault : FileFault},
    s.makeBelow a names = (t, some fault) → t.makeBelow a names = (t, some fault)
  | [], _, _, _, _, h => by
    obtain ⟨rfl, -⟩ := Prod.ext_iff.1 h
    exact h
  | name :: names, s, t, a, fault, h => by
    cases hstep : s.makeNext a name with
    | error fault' =>
      have hstuck : s.makeBelow a (name :: names) = (s, some fault') := makeBelow_cons_error hstep
      rw [h] at hstuck
      cases hstuck
      exact h
    | ok s₁ =>
      rw [makeBelow_cons_ok hstep] at h
      have hkeeps : s₁.Keeps t := by
        have hk := keeps_makeBelow names s₁ (next a name)
        rwa [h] at hk
      obtain ⟨e, he⟩ := (get?_of_makeNext hstep).2
      have hb : t.get? (next a name) = some e := by
        have hget := get?_of_makeBelow names s₁ (next a name) he
        rwa [h] at hget
      have hnone := ((keeps_of_makeNext hstep).trans hkeeps).hindrance? (makeNext_eq_ok.1 hstep).1
      rw [makeBelow_cons_ok (makeNext_again hnone hb)]
      exact makeBelow_of_fault h

theorem keeps_make (s : Store) (here : Address) (p : Path) : s.Keeps (s.make here p).1 :=
  keeps_makeBelow _ s _

/-- **A file holds what it has held** when directories are made. -/
theorem Holds.of_make (h : s.Holds here q bytes) (p : Path) : (s.make here p).1.Holds here q bytes := by
  obtain ⟨a, ha, hg⟩ := holds_iff.1 h
  exact holds_iff.2 ⟨a, (keeps_make s here p).locate ha, get?_of_makeBelow _ s _ hg⟩

/-- **A directory that has been made is not made again**, as long as all directories stay. -/
theorem make_again {s₂ : Store} (h : (s.make here p).2 = none) (hk : (s.make here p).1.Keeps s₂) :
    s₂.make here p = (s₂, none) := makeBelow_again h hk

/-! ### Addresses -/

theorem locate_child_of_directory {name : String} (ha : s.locate here p = .ok a)
    (hstep : s.hindrance? a name = none) (hn : name ≠ "..") :
    s.locate here (p.child name) = .ok (a ++ [name]) := by
  have hwalk : s.locate here (p.child name) = s.walk a [name] := walk_append ha
  rw [hwalk, ← next_of_ne hn]
  exact walk_cons_eq_ok.2 ⟨hstep, rfl⟩

/-- **Where names lead does not depend on what there is**, as long as they lead somewhere. -/
theorem normal_of_walk : ∀ {names : List String} {a b : Address},
    s.walk a names = .ok b → b = normal a names
  | [], _, _, h => (Except.ok.inj h).symm
  | name :: names, a, b, h => by
    have hrest : b = normal (next a name) names := normal_of_walk (walk_cons_eq_ok.1 h).2
    exact hrest

theorem addressOf_of_locate (h : s.locate here p = .ok a) : a = addressOf here p := normal_of_walk h

theorem addressOf_child {name : String} (hn : name ≠ "..") (here : Address) (p : Path) :
    addressOf here (p.child name) = addressOf here p ++ [name] := by
  unfold addressOf normal Path.child
  rw [List.foldl_append]
  exact next_of_ne hn _

/-! ### The names in a directory -/

/-- The addresses of the entries of a store, in their order. -/
def addresses (s : Store) : List Address := s.entries.map Prod.fst

/-- The last name of an address that stands in a directory. -/
def nameIn (a b : Address) : Option String :=
  match b.getLast? with
  | some name => if b.dropLast = a then some name else none
  | none => none

theorem childNames_eq (s : Store) (a : Address) : s.childNames a = s.addresses.filterMap (nameIn a) := by
  rw [addresses, List.filterMap_map]
  rfl

theorem eq_of_nameIn {name : String} (h : nameIn a b = some name) : b = a ++ [name] := by
  unfold nameIn at h
  split at h
  · next last hlast =>
    split_ifs at h with hb
    cases h
    rw [← hb, List.dropLast_append_getLast? _ hlast]
  · cases h

theorem get?_of_not_mem_addresses (ha : a ≠ []) (h : a ∉ s.addresses) : s.get? a = none := by
  have hroot : ¬ a.isEmpty = true := by simpa using ha
  rw [get?, if_neg hroot]
  exact List.lookup_eq_none_iff.2 fun x hx => bne_iff_ne.2 fun hax =>
    h (hax ▸ List.mem_map_of_mem hx)

theorem get?_of_mem_addresses (h : a ∈ s.addresses) : s.get? a ≠ none := by
  unfold get?
  split_ifs
  · exact Option.some_ne_none _
  · intro hnone
    obtain ⟨x, hx, rfl⟩ := List.mem_map.1 h
    simpa using List.lookup_eq_none_iff.1 hnone x hx

/-- **A store with all entries of another one, in their order**, and with new ones after them. -/
def Grows (s s' : Store) : Prop :=
  ∃ more, s'.addresses = s.addresses ++ more ∧ ∀ b ∈ more, b ∉ s.addresses

theorem Grows.refl (s : Store) : s.Grows s := ⟨[], by simp, nofun⟩

theorem Grows.trans {s'' : Store} (h : s.Grows s') (h' : s'.Grows s'') : s.Grows s'' := by
  obtain ⟨more, hmore, hnew⟩ := h
  obtain ⟨more', hmore', hnew'⟩ := h'
  refine ⟨more ++ more', by rw [hmore', hmore, List.append_assoc], fun b hb => ?_⟩
  rcases List.mem_append.1 hb with hb | hb
  · exact hnew b hb
  · intro hold
    exact hnew' b hb (hmore ▸ List.mem_append_left _ hold)

theorem map_fst_setEntry (a : Address) (e : Entry) : ∀ es : List (Address × Entry),
    (setEntry a e es).map Prod.fst = es.map Prod.fst ∨
      a ∉ es.map Prod.fst ∧ (setEntry a e es).map Prod.fst = es.map Prod.fst ++ [a]
  | [] => .inr ⟨by simp, rfl⟩
  | (b, old) :: es => by
    rw [setEntry]
    by_cases hb : b = a
    · rw [if_pos hb]
      exact .inl rfl
    · rw [if_neg hb]
      rcases map_fst_setEntry a e es with hsame | ⟨hnew, happend⟩
      · exact .inl (by rw [List.map_cons, List.map_cons, hsame])
      · refine .inr ⟨?_, by rw [List.map_cons, List.map_cons, happend]; rfl⟩
        rw [List.map_cons, List.mem_cons, not_or]
        exact ⟨Ne.symm hb, hnew⟩

theorem grows_set (s : Store) (a : Address) (e : Entry) : s.Grows (s.set a e) := by
  rcases map_fst_setEntry a e s.entries with hsame | ⟨hnew, happend⟩
  · exact ⟨[], by rw [List.append_nil]; exact hsame, nofun⟩
  · refine ⟨[a], happend, fun b hb => ?_⟩
    rw [List.mem_singleton.1 hb]
    exact hnew

theorem grows_makeBelow : ∀ (names : List String) (s : Store) (a : Address),
    s.Grows (s.makeBelow a names).1
  | [], s, _ => .refl s
  | name :: names, s, a => by
    cases hstep : s.makeNext a name with
    | error fault =>
      rw [makeBelow_cons_error hstep]
      exact .refl s
    | ok t =>
      rw [makeBelow_cons_ok hstep]
      refine .trans ?_ (grows_makeBelow names t _)
      obtain ⟨-, ⟨-, rfl⟩ | ⟨-, -, -, rfl⟩⟩ := makeNext_eq_ok.1 hstep
      · exact .refl t
      · exact grows_set s _ _

/-- **The names in a directory stay in their order**, and the names after them are new. -/
theorem Grows.childNames (h : s.Grows s') (a : Address) : ∃ names,
    s'.childNames a = s.childNames a ++ names ∧ ∀ name ∈ names, s.get? (a ++ [name]) = none ∧
      s'.get? (a ++ [name]) ≠ none := by
  obtain ⟨more, hmore, hnew⟩ := h
  refine ⟨more.filterMap (nameIn a), ?_, fun name hname => ?_⟩
  · rw [childNames_eq, childNames_eq, hmore, List.filterMap_append]
  · obtain ⟨b, hb, hname⟩ := List.mem_filterMap.1 hname
    obtain rfl := eq_of_nameIn hname
    have hroot : a ++ [name] ≠ [] := by simp
    refine ⟨get?_of_not_mem_addresses hroot (hnew _ hb), get?_of_mem_addresses ?_⟩
    exact hmore ▸ List.mem_append_right _ hb

/-- Nothing hinders a step to a name in a directory if nothing has hindered one before, and all that is
new can be reached. -/
theorem Grows.hindrance?_eq_none (h : s.Grows s') (hk : s.Keeps s')
    (hreach : ∀ b, s.get? b = none → s'.get? b ≠ none → s'.Reaches b)
    (hstep : ∀ name ∈ s.childNames a, s.hindrance? a name = none) :
    ∀ name ∈ s'.childNames a, s'.hindrance? a name = none := by
  obtain ⟨more, hmore, hnew⟩ := h.childNames a
  intro name hname
  rw [hmore] at hname
  rcases List.mem_append.1 hname with hold | hname
  · exact hk.hindrance? (hstep name hold)
  · obtain ⟨c, last, heq, hc⟩ := hreach _ (hnew name hname).1 (hnew name hname).2
    obtain ⟨rfl, hlast⟩ := List.append_inj' heq rfl
    obtain rfl : name = last := (List.cons.inj hlast).1
    exact hc

end Bulletin.Store
