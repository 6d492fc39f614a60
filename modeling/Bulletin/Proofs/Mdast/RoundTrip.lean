import Bulletin.Mdast.Write
import Bulletin.Proofs.Json.RoundTrip
import Bulletin.Proofs.Mdast.Canonical

/-! # Trees are read as they are written

A canonical tree is what the reader makes of its own data value, with nothing reported
(`readsBack`), and the data value of a plain tree is plain, so that the same holds of its JSON
text (`read_toJson`). What is needed of one node is the same for all types: the fields that it is
written with (`Written`) say its type and give a node of it (`LeafReadsAs`, `BranchReadsAs`),
whatever fields follow them. For a canonical node this is the node itself, and in any case the trees
of such nodes are read as the trees of what their nodes are read as (`ReadsAs`). -/

namespace Bulletin.Proofs.Mdast.RoundTrip

open Bulletin.Mdast Runs

/-! ### Lookups -/

section Lookup
variable {fields rest : Fields} {key : String}

@[simp] theorem get?_cons_self (v : Value) : Fields.get? ((key, v) :: rest) key = some v :=
  List.lookup_cons_self

@[simp] theorem get?_cons_of_ne {key' : String} (v : Value) (h : key ≠ key') :
    Fields.get? ((key', v) :: rest) key = Fields.get? rest key := by
  rw [Fields.get?, List.lookup_cons, beq_false_of_ne h]
  rfl

theorem get?_append_of_notMem (h : key ∉ fields.map Prod.fst) :
    Fields.get? (fields ++ rest) key = Fields.get? rest key := by
  induction fields with
  | nil => rfl
  | cons f fields ih =>
    rw [List.map_cons, List.mem_cons, not_or] at h
    rw [List.cons_append, get?_cons_of_ne f.2 h.1]
    exact ih h.2

theorem getD_append_of_notMem (h : key ∉ fields.map Prod.fst) :
    Fields.getD (fields ++ rest) key = Fields.getD rest key := by
  rw [Fields.getD, Fields.getD, get?_append_of_notMem h]

theorem get?_of_notMem (h : key ∉ fields.map Prod.fst) : Fields.get? fields key = none := by
  rw [← List.append_nil fields, get?_append_of_notMem h]; rfl

theorem optional_cases (key : String) (v : Value) :
    v = .null ∧ Bulletin.Mdast.optional key v = [] ∨
      Bulletin.Mdast.optional key v = [(key, v)] := by
  cases v with
  | null => exact .inl ⟨rfl, rfl⟩
  | _ => exact .inr rfl

theorem getD_optional (v : Value) (h : Fields.get? rest key = none) :
    Fields.getD (Bulletin.Mdast.optional key v ++ rest) key = v := by
  rcases optional_cases key v with ⟨rfl, ho⟩ | ho
  · rw [ho, List.nil_append, Fields.getD, h]; rfl
  · simp [ho, Fields.getD]

theorem notMem_optional {key' : String} (v : Value) (h : key ≠ key') :
    key ∉ (Bulletin.Mdast.optional key' v).map Prod.fst := by
  rcases optional_cases key' v with ⟨-, ho⟩ | ho <;> simp [ho, h]

end Lookup

theorem readLocation_writeLocation {fields : Fields} (p : Option Location)
    (h : "position" ∉ fields.map Prod.fst) : readLocation (fields ++ writeLocation p) = p := by
  rw [readLocation, getD_append_of_notMem h]
  cases p with
  | none => rfl
  | some l =>
    have hl : Fields.getD (Bulletin.Mdast.optional "line" l.line ++
        Bulletin.Mdast.optional "column" l.column) "line" = l.line :=
      getD_optional _ (get?_of_notMem (notMem_optional _ (by decide)))
    have hc : Fields.getD (Bulletin.Mdast.optional "line" l.line ++
        Bulletin.Mdast.optional "column" l.column) "column" = l.column := by
      rw [getD_append_of_notMem (notMem_optional _ (by decide)), ← List.append_nil
        (Bulletin.Mdast.optional "column" l.column)]
      exact getD_optional _ rfl
    simp only [writeLocation, Fields.getD, get?_cons_self, Option.getD_some] at hl hc ⊢
    rw [hl, hc]

/-! ### The fields of a node -/

/-- What is known of the fields that a node is written with, when fields of some other keys follow
them: no key is there twice, and they hold the values of the node and plain values. -/
structure Written (values : List Value) (others : List String) (fields : Fields) : Prop where
  nodup : (fields.map Prod.fst ++ others).Nodup
  holds : ∀ p ∈ fields, p.2.Plain ∨ p.2 ∈ values

section Written
variable {values : List Value} {others : List String} {fields rest : Fields}
  (h : Written values others fields)
include h

theorem Written.notMem {key : String} (hk : key ∈ others) : key ∉ fields.map Prod.fst :=
  fun hm => (List.nodup_append.1 h.nodup).2.2 _ hm _ hk rfl

theorem Written.plain_dict (hk : (rest.map Prod.fst).Sublist others) (hv : ∀ v ∈ values, v.Plain)
    (hr : ∀ p ∈ rest, p.2.Plain) : (Value.dict (fields ++ rest)).Plain := by
  refine Value.plain_dict.2 ⟨?_, fun p hp => ?_⟩
  · rw [List.map_append]
    exact h.nodup.sublist ((List.Sublist.refl _).append hk)
  · rcases List.mem_append.1 hp with hp | hp
    · exact (h.holds p hp).elim id (hv p.2)
    · exact hr p hp

end Written

theorem keys_writeLocation (p : Option Location) :
    ((writeLocation p).map Prod.fst).Sublist ["position"] := by
  cases p <;> simp [writeLocation]

theorem plain_writeLocation {p : Option Location} (h : ∀ v ∈ placeValues p, v.Plain) :
    ∀ q ∈ writeLocation p, q.2.Plain := by
  cases p with
  | none => exact nofun
  | some l =>
    obtain ⟨hl, hc⟩ : l.line.Plain ∧ l.column.Plain := by simpa [placeValues] using h
    have hstart : (Value.dict (Bulletin.Mdast.optional "line" l.line ++
        Bulletin.Mdast.optional "column" l.column)).Plain := by
      refine Value.plain_dict.2 ?_
      rcases optional_cases "line" l.line with ⟨-, ho⟩ | ho <;>
        rcases optional_cases "column" l.column with ⟨-, ho'⟩ | ho' <;> simp [ho, ho', hl, hc]
    simpa [writeLocation, Value.plain_dict] using Value.plain_dict.1 hstart

theorem ofName?_literal (k : Literal) : NodeType.ofName? k.name = some (.leaf (.literal k)) := by
  cases k <;> rfl

theorem ofName?_foreign {k : Foreign} {s : String} (h : k.name? = some s) :
    NodeType.ofName? s = some (.leaf (.foreign k)) := by
  cases k <;> cases h <;> rfl

theorem ofName?_container (k : Container) :
    NodeType.ofName? k.name = some (.branch (.container k)) := by
  cases k <;> rfl

/-- **A leaf that is read as another**: its fields say its type and give the other leaf, whatever
fields follow them. -/
def LeafReadsAs (l m : Leaf) : Prop :=
  ∃ fields s t, l.fields = .ok fields ∧ Written l.values ["position"] fields ∧
    NodeType.ofName? s = some (.leaf t) ∧ ∀ rest,
      Fields.getD (fields ++ rest) "type" = .str s ∧ t.read (fields ++ rest) = .ok m

/-- **A branch that is read as another**, which is checked: its fields say its type and give the other
branch, if no start of a list follows them. -/
def BranchReadsAs (b c : Branch) : Prop :=
  ∃ fields s t, b.fields = .ok fields ∧ Written b.values ["children", "position"] fields ∧
    NodeType.ofName? s = some (.branch t) ∧ c.check = .ok () ∧
      ∀ rest, Fields.get? rest "start" = none → Fields.getD (fields ++ rest) "type" = .str s ∧
        t.read (fields ++ rest) = .ok c

/-- An MDX construct of a known kind is read without its text if it is an element. -/
theorem readsAs_foreign {k : Foreign} {v name : Value} (hk : k ≠ .other)
    (hname : k.isElement = false → name = .null) :
    LeafReadsAs (.foreign k v name) (.foreign k (if k.isElement then .str "" else v) name) := by
  obtain ⟨s, hs⟩ : ∃ s, k.name? = some s := by
    cases k <;> first | exact ⟨_, rfl⟩ | exact absurd rfl hk
  cases he : k.isElement with
  | true =>
    have hf : (Leaf.foreign k v name).fields = .ok [("type", .str s), ("name", name),
        ("attributes", .list []), ("children", .list [])] := by simp [Leaf.fields, hs, he]
    refine ⟨_, s, .foreign k, hf, ⟨by simp, ?_⟩, ofName?_foreign hs, fun rest => ?_⟩
    · simp [Leaf.values, Value.plain_list]
    · simp [Fields.getD, LeafType.read, he]
  | false =>
    obtain rfl := hname he
    have hf : (Leaf.foreign k v .null).fields = .ok [("type", .str s), ("value", v)] := by
      simp [Leaf.fields, hs, he]
    refine ⟨_, s, .foreign k, hf, ⟨by simp, by simp [Leaf.values]⟩, ofName?_foreign hs,
      fun rest => ?_⟩
    simp [Fields.getD, LeafType.read, textField, he]

/-- **A canonical leaf is read as itself.** -/
theorem readsAs_leaf_self {l : Leaf} (hc : l.Canonical) : LeafReadsAs l l := by
  cases l with
  | literal k v =>
    refine ⟨_, k.name, .literal k, rfl, ⟨by simp, by simp [Leaf.values]⟩, ofName?_literal k,
      fun rest => ?_⟩
    simp [Fields.getD, LeafType.read, textField]
  | code v lang =>
    refine ⟨_, "code", .code, rfl, ⟨by simp, by simp [Leaf.values]⟩, rfl, fun rest => ?_⟩
    simp [Fields.getD, LeafType.read, textField]
  | thematicBreak => exact ⟨_, "thematicBreak", .thematicBreak, rfl, ⟨by simp, by simp⟩, rfl,
      fun rest => ⟨rfl, rfl⟩⟩
  | lineBreak => exact ⟨_, "break", .lineBreak, rfl, ⟨by simp, by simp⟩, rfl,
      fun rest => ⟨rfl, rfl⟩⟩
  | image url alt title =>
    have ha : alt.orElse (.str "") = alt := hc
    refine ⟨_, "image", .image, rfl, ⟨by simp, by simp [Leaf.values]⟩, rfl, fun rest => ?_⟩
    simp [Fields.getD, LeafType.read, require, ha]
  | footnoteReference identifier label =>
    refine ⟨_, "footnoteReference", .footnoteReference, rfl, ⟨by simp, by simp [Leaf.values]⟩, rfl,
      fun rest => ?_⟩
    simp [Fields.getD, LeafType.read, require]
  | definition d =>
    refine ⟨_, "definition", .definition, rfl, ⟨by simp, by simp [Leaf.values]⟩, rfl,
      fun rest => ?_⟩
    simp [Fields.getD, LeafType.read, require]
  | imageReference identifier alt label =>
    have ha : alt.orElse (.str "") = alt := hc
    refine ⟨_, "imageReference", .imageReference, rfl, ⟨by simp, by simp [Leaf.values]⟩, rfl,
      fun rest => ?_⟩
    simp [Fields.getD, LeafType.read, require, ha]
  | foreign k v name =>
    obtain ⟨hk, hv⟩ := hc
    have h : LeafReadsAs (.foreign k v name) _ :=
      readsAs_foreign hk fun he => by rwa [he, if_neg Bool.false_ne_true] at hv
    cases he : k.isElement with
    | true =>
      rw [if_pos he] at hv
      rwa [if_pos he, ← hv] at h
    | false => rwa [he, if_neg Bool.false_ne_true] at h

theorem readsAs_heading {level : Value} {n : Int} (hlevel : level.whole? = some n)
    (hn : 1 ≤ n ∧ n ≤ 6) : BranchReadsAs (.heading level) (.heading (.int n)) := by
  have hwhole : level.toWhole = .ok n := by
    cases level <;> simp_all [Value.whole?, Value.toWhole]
  refine ⟨_, "heading", .heading, rfl, ⟨by simp, by simp [Branch.values]⟩, rfl, ?_,
    fun rest _ => ?_⟩
  · rw [check_heading, if_pos hn]
  · simp [Fields.getD, BranchType.read, hwhole, Except.mapError]

/-- **A canonical branch is read as itself.** -/
theorem readsAs_branch_self {b : Branch} (hc : b.Canonical) : BranchReadsAs b b := by
  cases b with
  | container k =>
    exact ⟨_, k.name, .container k, rfl, ⟨by simp, by simp⟩, ofName?_container k, rfl,
      fun rest _ => ⟨rfl, rfl⟩⟩
  | heading level =>
    obtain ⟨n, rfl, hn⟩ := hc
    exact readsAs_heading rfl hn
  | list ordered start =>
    obtain ⟨b, rfl⟩ := hc
    refine ⟨_, "list", .list, rfl, ⟨?_, ?_⟩, rfl, rfl, fun rest hr => ⟨rfl, ?_⟩⟩
    · rcases optional_cases "start" start with ⟨-, ho⟩ | ho <;> simp [ho]
    · rcases optional_cases "start" start with ⟨-, ho⟩ | ho <;> simp [ho, Branch.values]
    · have hs : Fields.getD ([("type", .str "list"), ("ordered", .bool b)] ++
          Bulletin.Mdast.optional "start" start ++ rest) "start" = start := by
        rw [List.append_assoc, getD_append_of_notMem (by simp)]
        exact getD_optional start hr
      rw [BranchType.read, hs]
      simp [Fields.getD, Value.truthy]
  | table align =>
    obtain ⟨vs, rfl⟩ := hc
    refine ⟨_, "table", .table, rfl, ⟨by simp, by simp [Branch.values]⟩, rfl, rfl, fun rest _ => ?_⟩
    have ha : ((Value.list vs).orElse (.list [])).items = .ok vs := by cases vs <;> rfl
    simp [Fields.getD, BranchType.read, ha, Except.mapError]
  | link url title =>
    refine ⟨_, "link", .link, rfl, ⟨by simp, by simp [Branch.values]⟩, rfl, rfl, fun rest _ => ?_⟩
    simp [Fields.getD, BranchType.read, require]
  | footnoteDefinition identifier label =>
    refine ⟨_, "footnoteDefinition", .footnoteDefinition, rfl, ⟨by simp, by simp [Branch.values]⟩,
      rfl, rfl, fun rest _ => ?_⟩
    simp [Fields.getD, BranchType.read, require]
  | linkReference identifier label =>
    refine ⟨_, "linkReference", .linkReference, rfl, ⟨by simp, by simp [Branch.values]⟩, rfl, rfl,
      fun rest _ => ?_⟩
    simp [Fields.getD, BranchType.read, require]

/-! ### Trees -/

/-- **A tree whose data value is read as another tree**; the value is plain if the tree is. -/
def ReadsAs (n m : Node) : Prop := ∃ v, n.toValue = .ok v ∧ (n.Plain → v.Plain) ∧
  ∀ (strict : Bool) (log : List Record), readNode strict v log = (.ok (some m), log)

theorem readsAs_leaf {l m : Leaf} (h : LeafReadsAs l m) (p : Option Location) :
    ReadsAs (.leaf l p) (.leaf m p) := by
  obtain ⟨fields, s, t, hl, hw, hs, hread⟩ := h
  obtain ⟨htype, hback⟩ := hread (writeLocation p)
  refine ⟨.dict (fields ++ writeLocation p), ?_, fun hp => ?_, fun strict log => ?_⟩
  · rw [Node.toValue, hl]; rfl
  · obtain ⟨hv, hp⟩ := Node.plain_leaf.1 hp
    exact hw.plain_dict (keys_writeLocation p) hv (plain_writeLocation hp)
  · rw [readNode, readType_of_name htype hs, pure_bind]
    dsimp only
    rw [hback, readLocation_writeLocation p (hw.notMem List.mem_cons_self)]
    rfl

theorem readEach_of_readsAs {ns ms : List Node} (h : List.Forall₂ ReadsAs ns ms) :
    ∃ vs, Node.toValues ns = .ok vs ∧ ((∀ n ∈ ns, n.Plain) → ∀ v ∈ vs, v.Plain) ∧
      ∀ (strict : Bool) (log : List Record), readEach strict vs log = (.ok ms, log) := by
  induction h with
  | nil => exact ⟨[], rfl, fun _ => nofun, fun strict log => by rw [readEach]; rfl⟩
  | @cons n m ns ms hn _ ih =>
    obtain ⟨v, hv, hp, hr⟩ := hn
    obtain ⟨vs, hvs, hps, hrs⟩ := ih
    refine ⟨v :: vs, ?_, fun hn => ?_, fun strict log => ?_⟩
    · rw [Node.toValues, hv, hvs]; rfl
    · obtain ⟨hn, hns⟩ := List.forall_mem_cons.1 hn
      exact List.forall_mem_cons.2 ⟨hp hn, hps hns⟩
    · rw [readEach, bind_ok (hr strict log), bind_ok (hrs strict log)]
      rfl

theorem readsAs_branch {b c : Branch} {ns ms : List Node} (h : BranchReadsAs b c)
    (hn : List.Forall₂ ReadsAs ns ms) (p : Option Location) :
    ReadsAs (.branch b ns p) (.branch c ms p) := by
  obtain ⟨fields, s, t, hb, hw, hs, hcheck, hread⟩ := h
  obtain ⟨vs, hvs, hps, hrs⟩ := readEach_of_readsAs hn
  set rest := ("children", Value.list vs) :: writeLocation p with hrest
  have hkeys : (rest.map Prod.fst).Sublist ["children", "position"] :=
    (keys_writeLocation p).cons_cons _
  have hstart : Fields.get? rest "start" = none := by
    refine get?_of_notMem fun h => ?_
    have := hkeys.subset h
    simp at this
  obtain ⟨htype, hback⟩ := hread rest hstart
  have hchildren : Fields.get? (fields ++ rest) "children" = some (.list vs) := by
    rw [get?_append_of_notMem (hw.notMem List.mem_cons_self)]; rfl
  have hplace : readLocation (fields ++ rest) = p := by
    have hposition : "position" ∉ (fields ++ [("children", Value.list vs)]).map Prod.fst := by
      simpa using hw.notMem (List.mem_cons_of_mem _ List.mem_cons_self)
    rw [hrest, List.append_cons]
    exact readLocation_writeLocation p hposition
  refine ⟨.dict (fields ++ rest), ?_, fun hp => ?_, fun strict log => ?_⟩
  · rw [Node.toValue, hb, hvs, hrest, List.append_cons]
    rfl
  · obtain ⟨⟨hv, hp⟩, hns⟩ := Node.plain_branch.1 hp
    exact hw.plain_dict hkeys hv
      (List.forall_mem_cons.2 ⟨Value.plain_list.2 (hps hns), plain_writeLocation hp⟩)
  · rw [readNode, readType_of_name htype hs, pure_bind]
    dsimp only
    rw [hback, childItems_of_get? hchildren, hplace]
    refine (bind_ok (hrs strict log)).trans ?_
    rw [hcheck]
    rfl

/-- **A tree that is read back from its data value**, which is plain if the tree is. -/
def ReadsBack (n : Node) : Prop := ReadsAs n n

/-- **A canonical tree is read back from its data value.** -/
theorem readsBack {n : Node} (hc : n.Canonical) : ReadsBack n := by
  induction n using Node.induct with
  | leaf l p => exact readsAs_leaf (readsAs_leaf_self (Node.canonical_leaf.1 hc)) p
  | branch b ns p ih =>
    obtain ⟨hb, hn⟩ := Node.canonical_branch.1 hc
    exact readsAs_branch (readsAs_branch_self hb) (List.forall₂_same.2 fun n h => ih n h (hn n h)) p

/-! ### Documents -/

theorem toValue_of_isRoot {n : Node} (h : n.IsRoot) {v : Value} (hv : n.toValue = .ok v) :
    ∃ fields, v = .dict (("type", .str "root") :: fields) := by
  obtain ⟨ns, p, rfl⟩ := h
  rw [Node.toValue] at hv
  obtain ⟨fields, hf, hv⟩ := except_bind_eq_ok.1 hv
  obtain ⟨vs, -, hv⟩ := except_bind_eq_ok.1 hv
  cases hf
  cases hv
  exact ⟨_, rfl⟩

/-- **A canonical root is read back as a document.** -/
theorem readDocument_toValue {n : Node} (hc : n.Canonical) (hn : n.IsRoot) :
    ∃ v, n.toValue = .ok v ∧ (n.Plain → v.Plain) ∧
      ∀ (strict : Bool) (log : List Record), readDocument strict v log = (.ok n, log) := by
  obtain ⟨v, hv, hp, hr⟩ := readsBack hc
  obtain ⟨fields, rfl⟩ := toValue_of_isRoot hn hv
  refine ⟨_, hv, hp, fun strict log => ?_⟩
  rw [readDocument_of_root rfl, bind_ok (hr strict log)]
  rfl

/-- **A canonical and plain root is read back from its JSON text**, whatever the indentation. -/
theorem read_toJson {n : Node} (hc : n.Canonical) (hp : n.Plain) (hn : n.IsRoot)
    (indent : Option Nat) : ∃ d v, n.toJson indent = .ok d ∧ Json.read d = .ok v ∧
      ∀ (strict : Bool) (log : List Record), readDocument strict v log = (.ok n, log) := by
  obtain ⟨v, hv, hvp, hr⟩ := readDocument_toValue hc hn
  refine ⟨Json.write v indent, v, ?_, Json.RoundTrip.read_write (hvp hp) indent, hr⟩
  rw [Node.toJson, hv]
  rfl

end Bulletin.Proofs.Mdast.RoundTrip
