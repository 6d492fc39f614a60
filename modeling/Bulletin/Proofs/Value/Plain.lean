import Bulletin.Value.Basic
import Mathlib.Algebra.Group.Nat.Defs
import Mathlib.Data.List.Nodup

/-! # Plain values

The values that JSON text carries without loss: no number in them has a fraction or too many digits,
and no object in them has a key twice. A property of a value without what is inside it is carried over
to the whole by `Value.All`.

* `Fields.ofList_eq_self`: settings without a repeated key are their own fields.
* `Fields.nodup_ofList`: the fields of any settings have no repeated key. -/

namespace Bulletin

namespace Value

/-! ### The parts of a value -/

mutual

/-- A value and the values inside it. -/
def parts : Value → List Value
  | list vs => list vs :: partsEach vs
  | dict fields => dict fields :: partsFields fields
  | v => [v]

/-- The values of a list and those inside them. -/
def partsEach : List Value → List Value
  | [] => []
  | v :: vs => parts v ++ partsEach vs

/-- The values of fields and those inside them. -/
def partsFields : List (String × Value) → List Value
  | [] => []
  | (_, v) :: r => parts v ++ partsFields r

end

theorem mem_partsEach {w : Value} : ∀ {vs : List Value},
    w ∈ partsEach vs ↔ ∃ v ∈ vs, w ∈ v.parts
  | [] => by simp [partsEach]
  | v :: vs => by simp [partsEach, mem_partsEach]

theorem mem_partsFields {w : Value} : ∀ {fields : Fields},
    w ∈ partsFields fields ↔ ∃ p ∈ fields, w ∈ p.2.parts
  | [] => by simp [partsFields]
  | (k, v) :: r => by simp only [partsFields, List.mem_append, mem_partsFields, List.exists_mem_cons_iff]

/-- **A property of a value and of every value inside it.** -/
def All (P : Value → Prop) (v : Value) : Prop := ∀ w ∈ v.parts, P w

instance (P : Value → Prop) [DecidablePred P] (v : Value) : Decidable (v.All P) := by
  unfold All; infer_instance

variable {P : Value → Prop}

theorem all_list {vs : List Value} : All P (list vs) ↔ P (list vs) ∧ ∀ v ∈ vs, All P v := by
  simp only [All, parts, List.mem_cons, forall_eq_or_imp, mem_partsEach]
  refine and_congr_right fun _ => ⟨fun h v hv w hw => h w ⟨v, hv, hw⟩, ?_⟩
  rintro h w ⟨v, hv, hw⟩
  exact h v hv w hw

theorem all_dict {fields : Fields} :
    All P (dict fields) ↔ P (dict fields) ∧ ∀ p ∈ fields, All P p.2 := by
  simp only [All, parts, List.mem_cons, forall_eq_or_imp, mem_partsFields]
  refine and_congr_right fun _ => ⟨fun h p hp w hw => h w ⟨p, hp, hw⟩, ?_⟩
  rintro h w ⟨p, hp, hw⟩
  exact h p hp w hw

/-- **Induction on values.** -/
@[elab_as_elim]
theorem induct {P : Value → Prop} (null : P .null) (bool : ∀ b, P (.bool b))
    (int : ∀ n, P (.int n)) (float : ∀ x, P (.float x)) (str : ∀ s, P (.str s))
    (list : ∀ vs, (∀ v ∈ vs, P v) → P (.list vs))
    (dict : ∀ fields, (∀ p ∈ fields, P p.2) → P (.dict fields)) : ∀ v, P v
  | .null => null
  | .bool b => bool b
  | .int n => int n
  | .float x => float x
  | .str s => str s
  | .list vs => list vs fun v _ => induct null bool int float str list dict v
  | .dict fields => dict fields fun (k, v) h =>
    have : sizeOf v < 1 + sizeOf fields := by
      have := List.sizeOf_lt_of_mem h
      simp only [Prod.mk.sizeOf_spec] at this
      omega
    induct null bool int float str list dict v

/-! ### Whole numbers and distinct keys -/

/-- The number of decimal digits of a whole number. -/
def digitCount (n : Int) : Nat := (Nat.toDigits 10 n.natAbs).length

/-- Whether a value is no number with a fraction. -/
def isExact : Value → Bool
  | float _ => false
  | _ => true

/-- Whether a value, if it is an object, has no key twice. -/
def isKeyed : Value → Bool
  | dict fields => (fields.map Prod.fst).Nodup
  | _ => true

/-- Whether a value by itself can be read from a text: a whole number has no more digits than it may
have, and an object no key twice. -/
def isReadable : Value → Bool
  | int n => digitCount n ≤ digitLimit
  | v => v.isKeyed

/-- **A value whose numbers are all whole.** -/
def Integral (v : Value) : Prop := v.All fun w => w.isExact

/-- **A value whose objects have no key twice.** -/
def Keyed (v : Value) : Prop := v.All fun w => w.isKeyed

/-- **A value whose parts can all be read from a text.** -/
def Readable (v : Value) : Prop := v.All fun w => w.isReadable

/-- **A value that JSON text carries without loss.** -/
def Plain (v : Value) : Prop := v.Integral ∧ v.Readable

instance (v : Value) : Decidable v.Integral := by unfold Integral; infer_instance

instance (v : Value) : Decidable v.Keyed := by unfold Keyed; infer_instance

instance (v : Value) : Decidable v.Readable := by unfold Readable; infer_instance

instance (v : Value) : Decidable v.Plain := by unfold Plain; infer_instance

/-- A number below ten to a power has no more digits than the power has zeros. -/
theorem digitCount_le {n : Int} {k : Nat} (hk : 0 < k) (h : n.natAbs < 10 ^ k) : digitCount n ≤ k :=
  (Nat.length_toDigits_le_iff (by decide) hk).2 h

section Flat
variable (b : Bool) (n : Int) (x : Number.Binary64) (s : String)

@[simp] theorem readable_null : null.Readable := by
  simp [Readable, All, parts, isReadable, isKeyed]
@[simp] theorem readable_bool : (bool b).Readable := by
  simp [Readable, All, parts, isReadable, isKeyed]
@[simp] theorem readable_float : (float x).Readable := by
  simp [Readable, All, parts, isReadable, isKeyed]
@[simp] theorem readable_str : (str s).Readable := by
  simp [Readable, All, parts, isReadable, isKeyed]

@[simp] theorem readable_int : (int n).Readable ↔ digitCount n ≤ digitLimit := by
  simp [Readable, All, parts, isReadable]

@[simp] theorem plain_null : null.Plain := by simp [Plain, Integral, All, parts, isExact]
@[simp] theorem plain_bool : (bool b).Plain := by simp [Plain, Integral, All, parts, isExact]
@[simp] theorem plain_str : (str s).Plain := by simp [Plain, Integral, All, parts, isExact]

@[simp] theorem plain_int : (int n).Plain ↔ digitCount n ≤ digitLimit := by
  simp [Plain, Integral, All, parts, isExact]

@[simp] theorem not_plain_float : ¬ (float x).Plain := by
  simp [Plain, Integral, All, parts, isExact]

end Flat

theorem keyed_dict {fields : Fields} :
    (dict fields).Keyed ↔ (fields.map Prod.fst).Nodup ∧ ∀ p ∈ fields, p.2.Keyed := by
  unfold Keyed; simp only [all_dict, isKeyed, decide_eq_true_eq]

theorem readable_list {vs : List Value} : (list vs).Readable ↔ ∀ v ∈ vs, v.Readable := by
  unfold Readable; simp [all_list, isReadable, isKeyed]

theorem readable_dict {fields : Fields} :
    (dict fields).Readable ↔ (fields.map Prod.fst).Nodup ∧ ∀ p ∈ fields, p.2.Readable := by
  unfold Readable; simp only [all_dict, isReadable, isKeyed, decide_eq_true_eq]

theorem plain_list {vs : List Value} : (list vs).Plain ↔ ∀ v ∈ vs, v.Plain := by
  unfold Plain Integral
  simp [all_list, readable_list, isExact, forall_and]

theorem plain_dict {fields : Fields} :
    (dict fields).Plain ↔ (fields.map Prod.fst).Nodup ∧ ∀ p ∈ fields, p.2.Plain := by
  unfold Plain Integral
  simp only [all_dict, readable_dict, isExact, true_and, forall_and]
  exact and_left_comm

end Value

/-! ### The fields of settings -/

namespace Fields

open List

theorem mem_keys_set {key k : String} {v : Value} : ∀ {fields : Fields},
    k ∈ (fields.set key v).map Prod.fst ↔ k = key ∨ k ∈ fields.map Prod.fst
  | [] => by simp [set]
  | (k', old) :: r => by
    by_cases h : k' = key
    · simp [set, h]
    · simp only [set, h, if_false, map_cons, mem_cons, mem_keys_set]
      exact or_left_comm

theorem nodup_set {key : String} {v : Value} : ∀ {fields : Fields},
    (fields.map Prod.fst).Nodup → ((fields.set key v).map Prod.fst).Nodup
  | [], _ => by simp [set]
  | (k, old) :: r, h => by
    rw [map_cons, nodup_cons] at h
    by_cases hk : k = key
    · simp only [set, hk, if_true, map_cons, nodup_cons]
      exact ⟨hk ▸ h.1, h.2⟩
    · simp only [set, hk, if_false, map_cons, nodup_cons, mem_keys_set, false_or]
      exact ⟨h.1, nodup_set h.2⟩

theorem mem_set {key : String} {v : Value} {p : String × Value} : ∀ {fields : Fields},
    p ∈ fields.set key v → p = (key, v) ∨ p ∈ fields
  | [], h => by simpa [set] using h
  | (k, old) :: r, h => by
    by_cases hk : k = key
    · simp only [set, hk, if_true, mem_cons] at h
      exact h.imp_right (mem_cons_of_mem _)
    · simp only [set, hk, if_false, mem_cons] at h ⊢
      rcases h with h | h
      · exact .inr (.inl h)
      · exact (mem_set h).imp_right .inr

theorem set_of_notMem {key : String} {v : Value} : ∀ {fields : Fields},
    key ∉ fields.map Prod.fst → fields.set key v = fields ++ [(key, v)]
  | [], _ => rfl
  | (k, old) :: r, h => by
    rw [map_cons, mem_cons, not_or] at h
    simp only [set, Ne.symm h.1, if_false, set_of_notMem h.2, cons_append]

theorem get?_set_self (key : String) (v : Value) : ∀ fields : Fields,
    (fields.set key v).get? key = some v
  | [] => by simp [set, get?]
  | (k, old) :: r => by
    by_cases hk : k = key
    · simp [set, get?, hk]
    · have ih := get?_set_self key v r
      unfold get? at ih ⊢
      rw [set, if_neg hk, lookup_cons, beq_eq_false_iff_ne.2 (Ne.symm hk)]
      exact ih

theorem get?_set_of_ne {key k : String} (hne : k ≠ key) (v : Value) : ∀ fields : Fields,
    (fields.set key v).get? k = fields.get? k
  | [] => by simp [set, get?, lookup_cons, beq_eq_false_iff_ne.2 hne]
  | (k', old) :: r => by
    have ih := get?_set_of_ne hne v r
    unfold get? at ih ⊢
    by_cases hk : k' = key
    · rw [set, if_pos hk, lookup_cons, lookup_cons, hk, beq_eq_false_iff_ne.2 hne]
    · rw [set, if_neg hk, lookup_cons, lookup_cons, ih]

theorem set_eq_self {key : String} {v : Value} : ∀ {fields : Fields},
    fields.get? key = some v → fields.set key v = fields
  | [], h => by cases h
  | (k, old) :: r, h => by
    unfold get? at h
    rw [lookup_cons] at h
    by_cases hk : k = key
    · rw [hk, beq_self_eq_true] at h
      rw [set, if_pos hk, Option.some.inj h]
    · rw [beq_eq_false_iff_ne.2 (Ne.symm hk)] at h
      rw [set, if_neg hk, set_eq_self h]

theorem nodup_foldl_set : ∀ (settings : Fields) {fields : Fields}, (fields.map Prod.fst).Nodup →
    ((settings.foldl (fun fs p => fs.set p.1 p.2) fields).map Prod.fst).Nodup
  | [], _, h => h
  | _ :: r, _, h => nodup_foldl_set r (nodup_set h)

theorem mem_foldl_set {p : String × Value} : ∀ {settings fields : Fields},
    p ∈ settings.foldl (fun fs p => fs.set p.1 p.2) fields → p ∈ fields ∨ p ∈ settings
  | [], _, h => .inl h
  | q :: r, _, h => by
    rw [foldl_cons] at h
    rcases mem_foldl_set h with h | h
    · rcases mem_set h with h | h
      · exact .inr (h ▸ mem_cons_self)
      · exact .inl h
    · exact .inr (mem_cons_of_mem _ h)

theorem foldl_set_of_nodup : ∀ (settings : Fields) {fields : Fields},
    ((fields ++ settings).map Prod.fst).Nodup →
      settings.foldl (fun fs p => fs.set p.1 p.2) fields = fields ++ settings
  | [], _, _ => by simp
  | (k, v) :: r, fields, h => by
    have hk : k ∉ fields.map Prod.fst := by
      rw [map_append, map_cons] at h
      exact fun hm => (nodup_append.1 h).2.2 _ hm _ mem_cons_self rfl
    have hr : ((fields ++ [(k, v)] ++ r).map Prod.fst).Nodup := by simpa using h
    rw [foldl_cons, set_of_notMem hk, foldl_set_of_nodup r hr]
    simp

/-- **The fields of settings have no key twice.** -/
theorem nodup_ofList (settings : Fields) : ((ofList settings).map Prod.fst).Nodup :=
  nodup_foldl_set settings .nil

theorem mem_of_mem_ofList {settings : Fields} {p : String × Value} (h : p ∈ ofList settings) :
    p ∈ settings := by
  rcases mem_foldl_set h with h | h
  · cases h
  · exact h

/-- **Settings without a repeated key are their own fields.** -/
theorem ofList_eq_self {settings : Fields} (h : (settings.map Prod.fst).Nodup) :
    ofList settings = settings :=
  foldl_set_of_nodup settings (by simpa using h)

end Fields

end Bulletin
