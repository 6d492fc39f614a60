import Bulletin.Proofs.Runs
import Bulletin.Proofs.Value.Plain
import Bulletin.Settings

/-! # Options from given values

Options are decided by their kind and by what their fields hold. Values that are given for fields are
put over those that are there, and all of them must be for fields that there are. So the options of a
kind come from its defaults in the same way as a table of a configuration comes from its values and
the overrides for it, and what a field holds in the end is the last that was given for it.

* `get?_merge`: what a field holds under overrides.
* `setAll_eq_ok_iff`, `update_eq_ok_iff`: what options come to when values are given. -/

namespace Bulletin.Proofs.Settings.Given

open Runs

/-! ### Fields under overrides -/

section Fields
variable {fields overrides : Fields} {key : String} {v : Value}

theorem get?_cons_self (key : String) (v : Value) (fields : Fields) :
    Fields.get? ((key, v) :: fields) key = some v := by
  rw [Fields.get?, List.lookup_cons, beq_self_eq_true]

theorem get?_cons_of_ne {k : String} (h : key ≠ k) :
    Fields.get? ((k, v) :: fields) key = fields.get? key := by
  rw [Fields.get?, List.lookup_cons, beq_eq_false_iff_ne.2 h]
  rfl

theorem get?_append (fields rest : Fields) (key : String) :
    Fields.get? (fields ++ rest) key = (fields.get? key).or (rest.get? key) := List.lookup_append

theorem get?_eq_none_iff : fields.get? key = none ↔ key ∉ fields.map Prod.fst := by
  rw [Fields.get?, List.lookup_eq_none_iff, List.mem_map]
  constructor
  · rintro h ⟨p, hp, rfl⟩
    simpa using h p hp
  · intro h p hp
    exact bne_iff_ne.2 fun he => h ⟨p, hp, he.symm⟩

/-- **A field holds the override if there is one**, and else what it held before. -/
theorem get?_merge (h : (overrides.map Prod.fst).Nodup) (fields : Fields) (key : String) :
    (Settings.merge fields overrides).get? key = (overrides.get? key).or (fields.get? key) := by
  induction overrides generalizing fields with
  | nil => rfl
  | cons p r ih =>
    obtain ⟨k, v⟩ := p
    rw [List.map_cons, List.nodup_cons] at h
    have hrest : (Settings.merge fields ((k, v) :: r)).get? key =
        (Fields.get? r key).or ((fields.set k v).get? key) := ih h.2 (fields.set k v)
    rw [hrest]
    by_cases hk : key = k
    · subst hk
      rw [get?_eq_none_iff.2 h.1, Fields.get?_set_self, get?_cons_self]
      rfl
    · rw [Fields.get?_set_of_ne hk, get?_cons_of_ne hk]

theorem eq_map_getD (h : (fields.map Prod.fst).Nodup) :
    fields = (fields.map Prod.fst).map fun key => (key, fields.getD key) := by
  induction fields with
  | nil => rfl
  | cons p r ih =>
    obtain ⟨k, v⟩ := p
    rw [List.map_cons, List.nodup_cons] at h
    have htail : r = (r.map Prod.fst).map fun key => (key, Fields.getD ((k, v) :: r) key) := by
      conv_lhs => rw [ih h.2]
      refine List.map_congr_left fun key hkey => ?_
      have hne : key ≠ k := fun he => h.1 (he ▸ hkey)
      rw [Fields.getD, Fields.getD, get?_cons_of_ne hne]
    rw [List.map_cons, List.map_cons, ← htail, Fields.getD, get?_cons_self]
    rfl

end Fields

/-! ### Options with values given -/

section Options
variable {o o' : Options} {name : String} {v : Value} {changes : Fields} {kind : OptionsKind}

theorem keys_fields (o : Options) : o.fields.map Prod.fst = Options.fieldNames o.kind := by
  cases o <;> rfl

theorem nodup_fieldNames (kind : OptionsKind) : (Options.fieldNames kind).Nodup := by
  cases kind <;> decide

theorem kind_default (kind : OptionsKind) : (Options.default kind).kind = kind := by
  cases kind <;> rfl

/-- **Options are decided by their kind and their fields.** -/
theorem eq_of_fields (hk : o.kind = o'.kind) (hf : o.fields = o'.fields) : o = o' := by
  cases o <;> cases o' <;> cases hk
  all_goals simp only [Options.fields, List.cons.injEq, Prod.mk.injEq, true_and, and_true] at hf
  case markdown.markdown a b =>
    cases a
    cases b
    obtain ⟨h₁, h₂, h₃, h₄, h₅, h₆⟩ := hf
    congr
  case tree.tree a b =>
    cases a
    cases b
    congr
  case page.page a b =>
    cases a
    cases b
    obtain ⟨h₁, h₂⟩ := hf
    congr
  all_goals rfl

theorem set?_of_mem (h : name ∈ Options.fieldNames o.kind) :
    ∃ o', o.set? name v = some o' ∧ o'.kind = o.kind ∧ o'.fields = o.fields.set name v := by
  rw [← keys_fields] at h
  cases o with
  | markdown o =>
    simp only [Options.fields, List.map_cons, List.map_nil, List.mem_cons, List.not_mem_nil,
      or_false] at h
    rcases h with rfl | rfl | rfl | rfl | rfl | rfl <;> exact ⟨_, rfl, rfl, rfl⟩
  | tree o =>
    simp only [Options.fields, List.map_cons, List.map_nil, List.mem_singleton] at h
    subst h
    exact ⟨_, rfl, rfl, rfl⟩
  | page o =>
    simp only [Options.fields, List.map_cons, List.map_nil, List.mem_cons, List.not_mem_nil,
      or_false] at h
    rcases h with rfl | rfl <;> exact ⟨_, rfl, rfl, rfl⟩
  | parserBase => cases h
  | rendererBase => cases h

theorem mem_of_set? (h : o.set? name v = some o') : name ∈ Options.fieldNames o.kind := by
  unfold Options.set? at h
  split at h
  case h_10 => cases h
  all_goals simp [Options.fieldNames, Options.kind, Options.default, Options.fields]

theorem setAll_nil (o : Options) : o.setAll [] = .ok o := rfl

theorem setAll_cons (o : Options) (p : String × Value) (changes : Fields) :
    o.setAll (p :: changes) =
      match o.set? p.1 p.2 with
      | some o' => o'.setAll changes
      | none => .error (.unknownField o.kind p.1) := by
  show (match o.set? p.1 p.2 with
    | some o' => Except.ok o'
    | none => .error (.unknownField o.kind p.1) : Except OptionsFault Options) >>= _ = _
  cases o.set? p.1 p.2 <;> rfl

/-- **Values are taken if they are for fields that there are**, and each is put over what the field
held. -/
theorem setAll_eq_ok_iff : o.setAll changes = .ok o' ↔
    (∀ p ∈ changes, p.1 ∈ Options.fieldNames o.kind) ∧ o'.kind = o.kind ∧
      o'.fields = Settings.merge o.fields changes := by
  induction changes generalizing o with
  | nil =>
    rw [setAll_nil]
    constructor
    · rintro ⟨⟩
      exact ⟨nofun, rfl, rfl⟩
    · rintro ⟨-, hk, hf⟩
      exact congrArg _ (eq_of_fields hk.symm hf.symm)
  | cons p r ih =>
    rw [setAll_cons, List.forall_mem_cons]
    cases hset : o.set? p.1 p.2 with
    | none =>
      refine ⟨nofun, ?_⟩
      rintro ⟨⟨hp, -⟩, -⟩
      obtain ⟨o₁, h₁, -⟩ := set?_of_mem (v := p.2) hp
      rw [hset] at h₁
      cases h₁
    | some o₁ =>
      have hp := mem_of_set? hset
      obtain ⟨o₂, h₂, hk, hf⟩ := set?_of_mem (v := p.2) hp
      obtain rfl : o₁ = o₂ := Option.some.inj (hset.symm.trans h₂)
      rw [ih, hk, hf]
      constructor
      · rintro ⟨h, hk, hf⟩
        exact ⟨⟨hp, h⟩, hk, hf⟩
      · rintro ⟨⟨-, h⟩, hk, hf⟩
        exact ⟨h, hk, hf⟩

/-- **A change of options succeeds** if its values are taken and what comes of it passes the
check. -/
theorem update_eq_ok_iff : o.update changes = .ok o' ↔
    ((∀ p ∈ changes, p.1 ∈ Options.fieldNames o.kind) ∧ o'.kind = o.kind ∧
      o'.fields = Settings.merge o.fields changes) ∧ o'.check = .ok () := by
  unfold Options.update
  rw [except_bind_eq_ok]
  constructor
  · rintro ⟨o₁, h₁, h⟩
    obtain ⟨⟨⟩, hcheck, ⟨⟩⟩ := except_bind_eq_ok.1 h
    exact ⟨setAll_eq_ok_iff.1 h₁, hcheck⟩
  · rintro ⟨h, hcheck⟩
    refine ⟨o', setAll_eq_ok_iff.2 h, ?_⟩
    rw [hcheck]
    rfl

/-- **What the fields of built options hold**: the value given for a field, and else the default. -/
theorem fields_build {given : Fields} (hnodup : (given.map Prod.fst).Nodup)
    (h : Options.build kind given = .ok o) :
    o.fields = (Options.fieldNames kind).map fun key =>
      (key, (given.get? key).getD ((Options.default kind).fields.getD key)) := by
  obtain ⟨⟨hknown, hk, hf⟩, -⟩ := update_eq_ok_iff.1 h
  have hkeys : o.fields.map Prod.fst = Options.fieldNames kind := by
    rw [keys_fields, hk, kind_default]
  have hkeyed : (o.fields.map Prod.fst).Nodup := hkeys ▸ nodup_fieldNames kind
  rw [eq_map_getD hkeyed, hkeys, hf]
  refine List.map_congr_left fun key _ => ?_
  rw [Fields.getD, get?_merge hnodup]
  cases given.get? key <;> rfl

end Options

end Bulletin.Proofs.Settings.Given
