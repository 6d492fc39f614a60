import Bulletin.Mdast.Read
import Bulletin.Proofs.Mdast.Tree
import Bulletin.Proofs.Runs
import Bulletin.Proofs.Value.Plain

/-! # Canonical trees

A tree is canonical if each of its nodes holds what reading gives a node of its type: a heading a
level from 1 to 6, a list a truth value, a table a list of alignments, an image some alternative
text, an MDX element no text and another MDX construct no name. A tree is plain if all values in it
are.

* `fromValue_of_readNode`: reading gives canonical trees only, and plain trees of plain values.
* `fromValue_of_readDocument`: the same of documents, which are roots. -/

namespace Bulletin.Mdast

/-! ### What a node holds -/

/-- The values of a leaf. -/
def Leaf.values : Leaf → List Value
  | .literal _ v => [v]
  | .code v lang => [v, lang]
  | .thematicBreak => []
  | .lineBreak => []
  | .image url alt title => [url, alt, title]
  | .footnoteReference identifier label => [identifier, label]
  | .definition d => [d.identifier, d.url, d.title, d.label]
  | .imageReference identifier alt label => [identifier, alt, label]
  | .foreign _ v name => [v, name]

/-- The values of a branch. -/
def Branch.values : Branch → List Value
  | .container _ => []
  | .heading level => [level]
  | .list ordered start => [ordered, start]
  | .table align => [align]
  | .link url title => [url, title]
  | .footnoteDefinition identifier label => [identifier, label]
  | .linkReference identifier label => [identifier, label]

/-- The values of a place. -/
def placeValues : Option Location → List Value
  | none => []
  | some l => [l.line, l.column]

/-- The values of a node, without those of its children. -/
def Node.values : Node → List Value
  | .leaf l p => l.values ++ placeValues p
  | .branch b _ p => b.values ++ placeValues p

/-- Whether a leaf holds what reading gives a leaf of its type. -/
def Leaf.Canonical : Leaf → Prop
  | .image _ alt _ => alt.orElse (.str "") = alt
  | .imageReference _ alt _ => alt.orElse (.str "") = alt
  | .foreign k v name => k ≠ .other ∧ if k.isElement then v = .str "" else name = .null
  | _ => True

/-- Whether a branch holds what reading gives a branch of its type. -/
def Branch.Canonical : Branch → Prop
  | .heading level => ∃ n : Int, level = .int n ∧ 1 ≤ n ∧ n ≤ 6
  | .list ordered _ => ∃ b, ordered = .bool b
  | .table align => ∃ vs, align = .list vs
  | _ => True

namespace Node

/-- Whether a node holds what reading gives a node of its type. -/
def isCanonical : Node → Prop
  | leaf l _ => l.Canonical
  | branch b _ _ => b.Canonical

/-- **A tree whose nodes all hold what reading gives them.** -/
def Canonical (n : Node) : Prop := n.All isCanonical

/-- **A tree whose values are all plain.** -/
def Plain (n : Node) : Prop := n.All fun m => ∀ v ∈ m.values, v.Plain

/-- Whether a tree is a root with its children. -/
def IsRoot (n : Node) : Prop := ∃ ns p, n = branch (.container .root) ns p

variable {l : Leaf} {b : Branch} {ns : List Node} {p : Option Location}

theorem canonical_leaf : (leaf l p).Canonical ↔ l.Canonical := by
  unfold Canonical; simp [isCanonical]

theorem canonical_branch :
    (branch b ns p).Canonical ↔ b.Canonical ∧ ∀ n ∈ ns, n.Canonical := by
  unfold Canonical; simp [isCanonical]

theorem plain_leaf :
    (leaf l p).Plain ↔ (∀ v ∈ l.values, v.Plain) ∧ ∀ v ∈ placeValues p, v.Plain := by
  unfold Plain; simp only [all_leaf, values, List.forall_mem_append]

theorem plain_branch : (branch b ns p).Plain ↔
    ((∀ v ∈ b.values, v.Plain) ∧ ∀ v ∈ placeValues p, v.Plain) ∧ ∀ n ∈ ns, n.Plain := by
  unfold Plain; simp only [all_branch, values, List.forall_mem_append]

end Node

/-! ### Reading the fields of a node -/

open Bulletin.Proofs.Runs

section Fields
variable {fields : Fields} {key : String} {v : Value}

theorem require_eq_ok (h : require fields key = .ok v) : fields.get? key = some v := by
  unfold require at h
  split at h
  · cases h; assumption
  · cases h

theorem orElse_orElse (v w : Value) : (v.orElse w).orElse w = v.orElse w := by
  unfold Value.orElse; split_ifs <;> rfl

/-- Fields whose values are all plain. -/
def PlainFields (fields : Fields) : Prop := ∀ key v, fields.get? key = some v → v.Plain

variable (hf : PlainFields fields)
include hf

theorem PlainFields.getD (key : String) : (Fields.getD fields key).Plain := by
  unfold Fields.getD
  cases h : Fields.get? fields key with
  | none => exact Value.plain_null
  | some v => exact hf key v h

theorem PlainFields.textField (key : String) : (textField fields key).Plain := by
  unfold Mdast.textField
  cases h : Fields.get? fields key with
  | none => exact Value.plain_str ""
  | some v => exact hf key v h

theorem PlainFields.require (h : require fields key = .ok v) : v.Plain :=
  hf key v (require_eq_ok h)

theorem PlainFields.orElse (key : String) {w : Value} (hw : w.Plain) :
    ((Fields.getD fields key).orElse w).Plain := by
  unfold Value.orElse
  split_ifs
  · exact hf.getD key
  · exact hw

end Fields

theorem PlainFields.of_dict {fields : Fields} (h : (Value.dict fields).Plain) :
    PlainFields fields := by
  intro key v hv
  obtain ⟨l₁, l₂, rfl, -⟩ := List.lookup_eq_some_iff.1 hv
  exact (Value.plain_dict.1 h).2 (key, v) (by simp)

theorem plain_items {v : Value} (hv : v.Plain) {vs : List Value} (h : v.items = .ok vs) :
    (Value.list vs).Plain := by
  cases v with
  | list xs => cases h; exact hv
  | str s =>
    cases h
    refine Value.plain_list.2 fun w hw => ?_
    obtain ⟨c, -, rfl⟩ := List.mem_map.1 hw
    exact Value.plain_str _
  | dict fields =>
    cases h
    refine Value.plain_list.2 fun w hw => ?_
    obtain ⟨p, -, rfl⟩ := List.mem_map.1 hw
    exact Value.plain_str _
  | _ => cases h

theorem ofName?_ne_other {s : String} {k : Foreign}
    (h : NodeType.ofName? s = some (.leaf (.foreign k))) : k ≠ .other := by
  have ht : ∀ p ∈ NodeType.table, p.2 ≠ .leaf (.foreign .other) := by decide
  obtain ⟨l₁, l₂, hl, -⟩ := List.lookup_eq_some_iff.1 h
  rintro rfl
  exact ht (s, .leaf (.foreign .other)) (by simp [hl]) rfl

/-- **A leaf that is read is canonical, and plain if its fields are.** -/
theorem LeafType.canonical_of_read {fields : Fields} {l : Leaf} {t : LeafType}
    (ht : t ≠ .foreign .other) (h : t.read fields = .ok l) :
    l.Canonical ∧ (PlainFields fields → ∀ v ∈ l.values, v.Plain) := by
  have he := Value.plain_str ""
  cases t with
  | literal k =>
    cases h
    exact ⟨trivial, fun hf => by simp [Leaf.values, hf.textField]⟩
  | code =>
    cases h
    exact ⟨trivial, fun hf => by simp [Leaf.values, hf.textField, hf.getD]⟩
  | thematicBreak => cases h; exact ⟨trivial, fun _ => by simp [Leaf.values]⟩
  | lineBreak => cases h; exact ⟨trivial, fun _ => by simp [Leaf.values]⟩
  | image =>
    obtain ⟨url, hu, h⟩ := except_bind_eq_ok.1 h
    cases h
    exact ⟨orElse_orElse _ _, fun hf => by simp [Leaf.values, hf.require hu, hf.orElse _ he, hf.getD]⟩
  | footnoteReference =>
    obtain ⟨identifier, hi, h⟩ := except_bind_eq_ok.1 h
    cases h
    exact ⟨trivial, fun hf => by simp [Leaf.values, hf.require hi, hf.getD]⟩
  | definition =>
    obtain ⟨identifier, hi, h⟩ := except_bind_eq_ok.1 h
    obtain ⟨url, hu, h⟩ := except_bind_eq_ok.1 h
    cases h
    exact ⟨trivial, fun hf => by simp [Leaf.values, hf.require hi, hf.require hu, hf.getD]⟩
  | imageReference =>
    obtain ⟨identifier, hi, h⟩ := except_bind_eq_ok.1 h
    cases h
    exact ⟨orElse_orElse _ _, fun hf => by simp [Leaf.values, hf.require hi, hf.orElse _ he, hf.getD]⟩
  | foreign k =>
    have hk : k ≠ .other := fun hk => ht (congrArg _ hk)
    simp only [LeafType.read] at h
    split_ifs at h with hi <;> cases h
    · exact ⟨⟨hk, by rw [if_pos hi]⟩, fun hf => by simp [Leaf.values, hf.getD]⟩
    · exact ⟨⟨hk, by rw [if_neg hi]⟩, fun hf => by simp [Leaf.values, hf.textField]⟩

theorem check_heading (n : Int) : (Branch.heading (.int n)).check =
    if 1 ≤ n ∧ n ≤ 6 then .ok () else .error (.levelRange (.int n)) := by
  by_cases h : 1 ≤ n ∧ n ≤ 6
  · simp [Branch.check, between, Value.whole?, Except.mapError, h]
  · simp only [if_neg h]
    simp [Branch.check, between, Value.whole?, Except.mapError, h]
    rfl

theorem plain_level {n : Int} (h : 1 ≤ n ∧ n ≤ 6) : (Value.int n).Plain := by
  have hn : n.natAbs < 10 ^ 1 := by omega
  exact (Value.plain_int n).2 (Nat.le_trans (Value.digitCount_le (by decide) hn) (by decide))

/-- **A branch that is read and checked is canonical, and plain if its fields are.** -/
theorem BranchType.canonical_of_read {fields : Fields} {b : Branch} {t : BranchType}
    (h : t.read fields = .ok b) (hc : b.check = .ok ()) :
    b.Canonical ∧ (PlainFields fields → ∀ v ∈ b.values, v.Plain) := by
  cases t with
  | container k => cases h; exact ⟨trivial, fun _ => by simp [Branch.values]⟩
  | heading =>
    obtain ⟨level, hl, h⟩ := except_bind_eq_ok.1 h
    cases h
    rw [check_heading] at hc
    have hr : 1 ≤ level ∧ level ≤ 6 := by
      by_contra hr
      rw [if_neg hr] at hc
      cases hc
    exact ⟨⟨level, rfl, hr⟩, fun _ => List.forall_mem_singleton.2 (plain_level hr)⟩
  | list =>
    cases h
    exact ⟨⟨_, rfl⟩, fun hf => by simp [Branch.values, hf.getD]⟩
  | table =>
    obtain ⟨align, ha, h⟩ := except_bind_eq_ok.1 h
    cases h
    refine ⟨⟨_, rfl⟩, fun hf => ?_⟩
    have hl : (Value.list []).Plain := Value.plain_list.2 (by simp)
    have hp := plain_items (hf.orElse "align" hl) (except_mapError_eq_ok.1 ha)
    simpa [Branch.values] using hp
  | link =>
    obtain ⟨url, hu, h⟩ := except_bind_eq_ok.1 h
    cases h
    exact ⟨trivial, fun hf => by simp [Branch.values, hf.require hu, hf.getD]⟩
  | footnoteDefinition =>
    obtain ⟨identifier, hi, h⟩ := except_bind_eq_ok.1 h
    cases h
    exact ⟨trivial, fun hf => by simp [Branch.values, hf.require hi, hf.getD]⟩
  | linkReference =>
    obtain ⟨identifier, hi, h⟩ := except_bind_eq_ok.1 h
    cases h
    exact ⟨trivial, fun hf => by simp [Branch.values, hf.require hi, hf.getD]⟩

/-! ### Reading trees -/

theorem plain_readLocation {fields : Fields} (h : PlainFields fields) :
    ∀ v ∈ placeValues (readLocation fields), v.Plain := by
  unfold readLocation
  split
  · next position hp =>
    have hpos : PlainFields position := .of_dict (hp ▸ h.getD "position")
    split
    · next start hs =>
      have hstart : PlainFields start := .of_dict (hs ▸ hpos.getD "start")
      simp [placeValues, hstart.getD]
    · simp [placeValues]
  · simp [placeValues]

theorem ofName?_of_readType {strict : Bool} {fields : Fields} {t : NodeType} {log log' : List Record}
    (h : readType strict fields log = (.ok (some t), log')) : ∃ s, NodeType.ofName? s = some t := by
  unfold readType at h
  generalize Fields.getD fields "type" = type at h
  by_cases ht : type.truthy
  · simp only [ht, Bool.not_true, Bool.false_eq_true, if_false] at h
    cases type with
    | str s =>
      cases hs : NodeType.ofName? s with
      | some u =>
        simp only [Value.text?, Option.bind_some, hs] at h
        cases h
        exact ⟨s, hs⟩
      | none =>
        simp only [Value.text?, Option.bind_some, hs] at h
        cases strict <;> cases h
    | list _ => cases h
    | dict _ => cases h
    | _ => cases strict <;> cases h
  · simp only [Bool.not_eq_true] at ht
    simp only [ht, Bool.not_false, if_true] at h
    cases strict <;> cases h

theorem childItems_cases (fields : Fields) :
    (∃ h, childItems fields = .ok ⟨[], h⟩) ∨
      (∃ vs h, fields.get? "children" = some (.list vs) ∧ childItems fields = .ok ⟨vs, h⟩) ∨
        ∃ f, childItems fields = .error f := by
  unfold childItems
  split
  · exact .inl ⟨Fields.sizeOf_nil_lt fields, rfl⟩
  · next vs h => exact .inr (.inl ⟨vs, Fields.sizeOf_items_lt h, h, rfl⟩)
  · exact .inr (.inr ⟨_, rfl⟩)

theorem childItems_of_get? {fields : Fields} {vs : List Value}
    (h : fields.get? "children" = some (.list vs)) :
    childItems fields = .ok ⟨vs, Fields.sizeOf_items_lt h⟩ := by
  unfold childItems
  split
  · next h' => rw [h] at h'; cases h'
  · next vs' h' => rw [h] at h'; cases h'; rfl
  · next hne h' => rw [h] at h'; cases h'; exact absurd rfl (hne _)

theorem plain_childItems {fields : Fields} (hf : PlainFields fields)
    {items : { items : List Value // sizeOf items < sizeOf (Value.dict fields) }}
    (h : childItems fields = .ok items) : ∀ v ∈ items.1, v.Plain := by
  rcases childItems_cases fields with ⟨_, hc⟩ | ⟨vs, _, hg, hc⟩ | ⟨f, hc⟩
  · rw [hc] at h; cases h; simp
  · rw [hc] at h; cases h; exact Value.plain_list.1 (hf _ _ hg)
  · rw [hc] at h; cases h

/-- What is known of a tree that is read from a value. -/
def FromValue (v : Value) (n : Node) : Prop := n.Canonical ∧ (v.Plain → n.Plain)

theorem fromValue_of_readEach {strict : Bool} : ∀ {vs : List Value} {ns : List Node}
    {log log' : List Record}, (∀ v ∈ vs, ∀ n log log',
      readNode strict v log = (.ok (some n), log') → FromValue v n) →
      readEach strict vs log = (.ok ns, log') →
        ∀ n ∈ ns, n.Canonical ∧ ((∀ v ∈ vs, v.Plain) → n.Plain)
  | [], _, _, _, _, h => by
    rw [readEach] at h
    cases (pure_eq_ok.1 h).1
    simp
  | v :: r, _, _, _, ih, h => by
    rw [readEach] at h
    obtain ⟨n, log₁, hv, h⟩ := bind_eq_ok.1 h
    obtain ⟨ns, log₂, hr, h⟩ := bind_eq_ok.1 h
    cases (pure_eq_ok.1 h).1
    intro m hm
    rcases List.mem_append.1 hm with hm | hm
    · obtain rfl := Option.mem_toList.1 hm
      obtain ⟨hc, hp⟩ := ih v List.mem_cons_self _ _ _ hv
      exact ⟨hc, fun h => hp (h v List.mem_cons_self)⟩
    · obtain ⟨hc, hp⟩ :=
        fromValue_of_readEach (fun w hw => ih w (List.mem_cons_of_mem v hw)) hr m hm
      exact ⟨hc, fun h => hp fun w hw => h w (List.mem_cons_of_mem v hw)⟩

/-- **Reading gives canonical trees, and plain trees of plain values.** -/
theorem fromValue_of_readNode {strict : Bool} : ∀ (v : Value) {n : Node} {log log' : List Record},
    readNode strict v log = (.ok (some n), log') → FromValue v n
  | .dict fields, n, log, log', h => by
    rw [readNode] at h
    obtain ⟨t, log₁, ht, h⟩ := bind_eq_ok.1 h
    rcases t with _ | t | t
    · cases (pure_eq_ok.1 h).1
    · obtain ⟨s, hs⟩ := ofName?_of_readType ht
      obtain ⟨l, log₂, hl, h⟩ := bind_eq_ok.1 h
      cases (pure_eq_ok.1 h).1
      obtain ⟨hc, hp⟩ := LeafType.canonical_of_read
        (fun h => ofName?_ne_other (h ▸ hs) rfl) (lift_eq_ok.1 hl).1
      refine ⟨Node.canonical_leaf.2 hc, fun hv => ?_⟩
      have hf := PlainFields.of_dict hv
      exact Node.plain_leaf.2 ⟨hp hf, plain_readLocation hf⟩
    · obtain ⟨b, log₂, hb, h⟩ := bind_eq_ok.1 h
      obtain ⟨items, log₃, hi, h⟩ := bind_eq_ok.1 h
      obtain ⟨ns, log₄, hns, h⟩ := bind_eq_ok.1 h
      obtain ⟨⟨⟩, log₅, hk, h⟩ := bind_eq_ok.1 h
      cases (pure_eq_ok.1 h).1
      obtain ⟨hc, hp⟩ := BranchType.canonical_of_read (lift_eq_ok.1 hb).1 (lift_eq_ok.1 hk).1
      have hn := fromValue_of_readEach (fun v hv n log log' h =>
        have : sizeOf v < sizeOf (Value.dict fields) :=
          Nat.lt_trans (List.sizeOf_lt_of_mem hv) items.2
        fromValue_of_readNode v h) hns
      refine ⟨Node.canonical_branch.2 ⟨hc, fun n h => (hn n h).1⟩, fun hv => ?_⟩
      have hf := PlainFields.of_dict hv
      have hi := plain_childItems hf (lift_eq_ok.1 hi).1
      exact Node.plain_branch.2 ⟨⟨hp hf, plain_readLocation hf⟩, fun n h => (hn n h).2 hi⟩
  | .null, _, _, _, h | .bool _, _, _, _, h | .int _, _, _, _, h | .float _, _, _, _, h
  | .str _, _, _, _, h | .list _, _, _, _, h => by
    rw [readNode] at h
    · cases h
    · rintro _ ⟨⟩
termination_by v => sizeOf v
decreasing_by assumption

/-! ### Reading documents -/

theorem readType_of_name {strict : Bool} {fields : Fields} {s : String} {t : NodeType}
    (h : Fields.getD fields "type" = .str s) (ht : NodeType.ofName? s = some t) :
    readType strict fields = pure (some t) := by
  have hs : (Value.str s).truthy = true := by
    by_contra hs
    have he : s = "" := by simpa [Value.truthy] using hs
    subst he
    cases ht
  simp only [readType, h, hs, Bool.not_true, Bool.false_eq_true, if_false, Value.text?,
    Option.bind_some, ht]

theorem readDocument_of_root {strict : Bool} {fields : Fields}
    (h : Fields.getD fields "type" = .str "root") : readDocument strict (.dict fields) = (do
      match ← readNode strict (.dict fields) with
      | some n => return n
      | none => throw (.documentNotRoot (.str "root"))) := by
  unfold readDocument
  dsimp only
  split
  · rfl
  · next hne => exact absurd h hne

theorem readDocument_of_ne_root {strict : Bool} {fields : Fields}
    (h : Fields.getD fields "type" ≠ .str "root") : readDocument strict (.dict fields) =
      throw (.documentNotRoot (Fields.getD fields "type")) := by
  unfold readDocument
  dsimp only
  split
  · next h' => exact absurd h' h
  · rfl

theorem isRoot_of_readNode {strict : Bool} {fields : Fields} {n : Node} {log log' : List Record}
    (ht : Fields.getD fields "type" = .str "root")
    (h : readNode strict (.dict fields) log = (.ok (some n), log')) :
    n.IsRoot := by
  have hn : NodeType.ofName? "root" = some (.branch (.container .root)) := rfl
  rw [readNode, readType_of_name ht hn, pure_bind] at h
  obtain ⟨b, log₂, hb, h⟩ := bind_eq_ok.1 h
  obtain ⟨items, log₃, hi, h⟩ := bind_eq_ok.1 h
  obtain ⟨ns, log₄, hns, h⟩ := bind_eq_ok.1 h
  obtain ⟨⟨⟩, log₅, hk, h⟩ := bind_eq_ok.1 h
  cases (pure_eq_ok.1 h).1
  cases (lift_eq_ok.1 hb).1
  exact ⟨ns, _, rfl⟩

/-- **A document that is read is a canonical root, and plain if its value is.** -/
theorem fromValue_of_readDocument {strict : Bool} {v : Value} {n : Node} {log log' : List Record}
    (h : readDocument strict v log = (.ok n, log')) :
    FromValue v n ∧ n.IsRoot := by
  cases v with
  | dict fields =>
    by_cases ht : Fields.getD fields "type" = .str "root"
    · rw [readDocument_of_root ht] at h
      obtain ⟨m, log₁, hm, h⟩ := bind_eq_ok.1 h
      cases m with
      | none => cases h
      | some m =>
        cases (pure_eq_ok.1 h).1
        exact ⟨fromValue_of_readNode _ hm, isRoot_of_readNode ht hm⟩
    · rw [readDocument_of_ne_root ht] at h
      cases h
  | _ => cases h

end Bulletin.Mdast
