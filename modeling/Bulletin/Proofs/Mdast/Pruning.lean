import Bulletin.Proofs.Mdast.Faults
import Mathlib

/-! # Lenient reading is pruning

Lenient reading drops the nodes that have no type or an unknown one, each with all that is below it,
and warns of each. So it reads a value as strict reading reads the value without these nodes: it gives
the same node, or fails with the same fault.

* `prune`, `removed`: a value without the nodes that are dropped, and those nodes.
* `follows_readNode`: lenient reading follows strict reading of the pruned value.
* `whole_of_readNode`: in a value that strict reading accepts there is nothing to drop.
* `readNode_lenient`: both, and what becomes of a value that is dropped itself. -/

namespace Bulletin.Mdast

open Bulletin.Proofs.Runs

/-! ### What is dropped -/

/-- Whether a value can be looked up as a name; a list and an object cannot. -/
def isSimple : Value → Bool
  | .list _ => false
  | .dict _ => false
  | _ => true

/-- **Whether lenient reading drops a value**: it is an object, and its type does not count as given, or
can be looked up but is not known. -/
def isDropped : Value → Bool
  | .dict fields =>
    let type := Fields.getD fields "type"
    !type.truthy || (isSimple type && (typeOf? fields).isNone)
  | _ => false

/-- The warning about a node that is dropped, given by its type. -/
def typeWarning (type : Value) : Record :=
  ⟨.warning, .treeReader,
    if type.truthy then s!"Unknown node type '{type.display}', skipping"
    else "mdast node missing 'type' field, skipping"⟩

/-- The warning about a value that is dropped. -/
def dropWarning (v : Value) : Record := typeWarning (Fields.getD (v.fields?.getD []) "type")

mutual

/-- **A value without the nodes that are dropped**, at every depth among the children of nodes of a
type that has children. -/
def prune (v : Value) : Value :=
  match v with
  | .dict fields =>
    match typeOf? fields, _h : Fields.get? fields "children" with
    | some (.branch _), some (.list items) =>
      .dict (Fields.set fields "children" (.list (pruneEach items)))
    | _, _ => .dict fields
  | v => v
termination_by sizeOf v
decreasing_by exact Fields.sizeOf_items_lt _h

/-- The values of a row that are not dropped, pruned. -/
def pruneEach (vs : List Value) : List Value :=
  match vs with
  | [] => []
  | v :: r => if isDropped v then pruneEach r else prune v :: pruneEach r
termination_by sizeOf vs

end

mutual

/-- **The nodes that pruning removes from a value**, in document order. -/
def removed (v : Value) : List Value :=
  match v with
  | .dict fields =>
    match typeOf? fields, _h : Fields.get? fields "children" with
    | some (.branch _), some (.list items) => removedEach items
    | _, _ => []
  | _ => []
termination_by sizeOf v
decreasing_by exact Fields.sizeOf_items_lt _h

/-- The nodes that pruning removes from a row of values. -/
def removedEach (vs : List Value) : List Value :=
  match vs with
  | [] => []
  | v :: r => if isDropped v then v :: removedEach r else removed v ++ removedEach r
termination_by sizeOf vs

end

section Fields
variable {fields : Fields}

theorem prune_branch {t : BranchType} {items : List Value}
    (ht : typeOf? fields = some (.branch t)) (hc : fields.get? "children" = some (.list items)) :
    prune (.dict fields) = .dict (fields.set "children" (.list (pruneEach items))) ∧
      removed (.dict fields) = removedEach items := by
  rw [prune, removed]
  constructor
  · split
    · next t' items' _ hc' =>
      rw [hc] at hc'
      cases hc'
      rfl
    · next hno => exact absurd hc (hno t items ht)
  · split
    · next t' items' _ hc' =>
      rw [hc] at hc'
      cases hc'
      rfl
    · next hno => exact absurd hc (hno t items ht)

/-- A node without a row of children, or of a type that has none, has nothing to prune. -/
theorem prune_of_no_items (hno : ∀ t items, typeOf? fields = some (.branch t) →
    fields.get? "children" ≠ some (.list items)) :
    prune (.dict fields) = .dict fields ∧ removed (.dict fields) = [] := by
  rw [prune, removed]
  constructor
  · split
    · next t items ht hc => exact absurd hc (hno t items ht)
    · rfl
  · split
    · next t items ht hc => exact absurd hc (hno t items ht)
    · rfl

/-! ### Fields but for the children -/

variable (v : Value)

theorem getD_set_children {key : String} (hne : key ≠ "children") :
    (fields.set "children" v).getD key = fields.getD key := by
  unfold Fields.getD
  rw [Fields.get?_set_of_ne hne]

theorem typeOf?_set_children : typeOf? (fields.set "children" v) = typeOf? fields := by
  unfold typeOf?
  rw [getD_set_children v (by decide)]

theorem readLocation_set_children :
    readLocation (fields.set "children" v) = readLocation fields := by
  unfold readLocation
  rw [getD_set_children v (by decide)]

theorem require_set_children {key : String} (hne : key ≠ "children") :
    require (fields.set "children" v) key = require fields key := by
  unfold require
  rw [Fields.get?_set_of_ne hne, getD_set_children v (by decide)]

theorem readBranch_set_children (t : BranchType) :
    t.read (fields.set "children" v) = t.read fields := by
  have hne : ∀ {key : String}, key ≠ "children" →
      (fields.set "children" v).getD key = fields.getD key := getD_set_children v
  cases t with
  | container k => rfl
  | heading => rw [BranchType.read, BranchType.read, Fields.get?_set_of_ne (by decide)]
  | list => rw [BranchType.read, BranchType.read, hne (by decide), hne (by decide)]
  | table => rw [BranchType.read, BranchType.read, hne (by decide)]
  | link =>
    rw [BranchType.read, BranchType.read, require_set_children v (by decide), hne (by decide)]
  | footnoteDefinition =>
    rw [BranchType.read, BranchType.read, require_set_children v (by decide), hne (by decide)]
  | linkReference =>
    rw [BranchType.read, BranchType.read, require_set_children v (by decide), hne (by decide)]

end Fields

/-! ### The types of nodes -/

section Types
variable {fields : Fields}

theorem isDropped_dict : isDropped (.dict fields) =
    (!(fields.getD "type").truthy || (isSimple (fields.getD "type") && (typeOf? fields).isNone)) :=
  rfl

theorem dropWarning_dict : dropWarning (.dict fields) = typeWarning (fields.getD "type") := rfl

theorem truthy_of_typeOf? {t : NodeType} (h : typeOf? fields = some t) :
    (fields.getD "type").truthy = true := by
  unfold typeOf? at h
  generalize fields.getD "type" = type at h ⊢
  cases type with
  | str s =>
    by_contra hs
    obtain rfl : s = "" := by simpa [Value.truthy] using hs
    cases h
  | _ => cases h

/-- **A node that is not dropped** has a known type, or one that cannot be looked up, at which reading
stops however strict it is. -/
theorem type_of_not_dropped (h : isDropped (.dict fields) = false) :
    (∃ t, typeOf? fields = some t) ∨
      ∃ f, ∀ strict, readType strict fields = throw f := by
  cases ht : typeOf? fields with
  | some t => exact .inl ⟨t, rfl⟩
  | none =>
    refine .inr ?_
    rw [isDropped_dict, ht] at h
    unfold readType
    generalize fields.getD "type" = type at h ⊢
    cases type with
    | list vs =>
      have hl : (Value.list vs).truthy = true := by simpa [isSimple] using h
      exact ⟨_, fun strict => by simp only [hl]; rfl⟩
    | dict fs =>
      have hl : (Value.dict fs).truthy = true := by simpa [isSimple] using h
      exact ⟨_, fun strict => by simp only [hl]; rfl⟩
    | _ => simp [isSimple] at h

/-- **A node that is dropped** has no type in lenient reading, which warns of it; strict reading stops
there. -/
theorem readType_of_dropped (h : isDropped (.dict fields) = true) :
    readType false fields = (do
      Logged.report .warning .treeReader (dropWarning (.dict fields)).message
      return none) ∧ ∃ f, readType true fields = throw f := by
  have ht : typeOf? fields = none := by
    cases ht : typeOf? fields with
    | none => rfl
    | some t => simp [isDropped_dict, ht, truthy_of_typeOf? ht] at h
  rw [isDropped_dict, ht] at h
  unfold typeOf? at ht
  rw [dropWarning_dict]
  unfold readType typeWarning
  generalize fields.getD "type" = type at h ht ⊢
  by_cases htype : type.truthy = true
  · simp only [htype, Bool.not_true, Bool.false_or, Option.isNone_none, Bool.and_true] at h
    simp only [htype, Bool.not_true, Bool.false_eq_true, if_false, if_true]
    cases type with
    | list vs => cases h
    | dict fs => cases h
    | _ =>
      simp only [ht, true_and]
      exact ⟨_, rfl⟩
  · simp only [Bool.not_eq_true] at htype
    simp only [htype, Bool.not_false, Bool.false_eq_true, if_false, if_true, true_and]
    exact ⟨_, rfl⟩

theorem readNode_of_dropped {v : Value} (h : isDropped v = true) (log : List Record) :
    readNode false v log = (.ok none, log ++ [dropWarning v]) := by
  cases v with
  | dict fields =>
    rw [readNode, (readType_of_dropped h).1]
    rfl
  | _ => cases h

end Types

/-! ### Lenient reading follows strict reading -/

section Follows
variable {α β : Type} {x y : Logged Fault α} {ws ws' : List Record}

/-- **A lenient reading follows a strict one**, which reports nothing: it fails with the same fault, or
gives the same and some warnings. -/
def Follows (ws : List Record) (x y : Logged Fault α) : Prop :=
  ∀ log log', (∃ f log'', y log' = (.error f, log') ∧ x log = (.error f, log'')) ∨
    ∃ a, y log' = (.ok a, log') ∧ x log = (.ok a, log ++ ws)

theorem follows_pure (a : α) : Follows [] (pure a) (pure a : Logged Fault α) := fun log _ =>
  .inr ⟨a, rfl, by rw [List.append_nil]; rfl⟩

theorem follows_throw (f : Fault) : Follows [] (throw f) (throw f : Logged Fault α) := fun log _ =>
  .inl ⟨f, log, rfl, rfl⟩

theorem follows_lift (r : Except Fault α) : Follows [] (Logged.lift r) (Logged.lift r) := by
  cases r with
  | error f => exact follows_throw f
  | ok a => exact follows_pure a

/-- **Sequences follow each other if their parts do.** -/
theorem Follows.bind {g h : α → Logged Fault β} (hxy : Follows ws x y)
    (hgh : ∀ a, Follows ws' (g a) (h a)) : Follows (ws ++ ws') (x >>= g) (y >>= h) := by
  intro log log'
  rcases hxy log log' with ⟨f, log'', hy, hx⟩ | ⟨a, hy, hx⟩
  · exact .inl ⟨f, log'', bind_error hy, bind_error hx⟩
  · rw [bind_ok hx, bind_ok hy, ← List.append_assoc]
    exact hgh a (log ++ ws) log'

theorem Follows.silent_bind {g h : α → Logged Fault β} (hxy : Follows [] x y)
    (hgh : ∀ a, Follows ws' (g a) (h a)) : Follows ws' (x >>= g) (y >>= h) := hxy.bind hgh

theorem Follows.bind_silent {g h : α → Logged Fault β} (hxy : Follows ws x y)
    (hgh : ∀ a, Follows [] (g a) (h a)) : Follows ws (x >>= g) (y >>= h) := by
  have hall := hxy.bind hgh
  rwa [List.append_nil] at hall

theorem follows_lift_bind {r : Except Fault α} {g h : α → Logged Fault β}
    (hgh : ∀ a, Follows ws (g a) (h a)) :
    Follows ws (Logged.lift r >>= g) (Logged.lift r >>= h) := (follows_lift r).bind hgh

end Follows

theorem readNode_branch {strict : Bool} {fields : Fields} {t : BranchType}
    (ht : typeOf? fields = some (.branch t)) : readNode strict (.dict fields) = (do
      let b ← Logged.lift (t.read fields)
      let items ← Logged.lift (childItems fields)
      let children ← readEach strict items.1
      Logged.lift b.check
      return some (.branch b children (readLocation fields))) := by
  rw [readNode, readType_of_some ht, pure_bind]

/-- The warnings about dropped values, in the order of the values. -/
abbrev warnings (vs : List Value) : List Record := vs.map dropWarning

theorem follows_readEach : ∀ {vs : List Value},
    (∀ v ∈ vs, isDropped v = false →
      Follows (warnings (removed v)) (readNode false v) (readNode true (prune v))) →
    Follows (warnings (removedEach vs)) (readEach false vs) (readEach true (pruneEach vs))
  | [], _ => by
    rw [removedEach, pruneEach, readEach, readEach]
    exact follows_pure []
  | v :: r, ih => by
    obtain ⟨hv, hr⟩ := List.forall_mem_cons.1 ih
    have hrest := follows_readEach hr
    rw [removedEach, pruneEach, readEach]
    by_cases hd : isDropped v = true
    · rw [if_pos hd, if_pos hd]
      intro log log'
      rw [bind_ok (readNode_of_dropped hd log)]
      have hall := hrest.bind_silent (fun ns => follows_pure ((none : Option Node).toList ++ ns))
      simpa using hall (log ++ [dropWarning v]) log'
    · rw [if_neg hd, if_neg hd, readEach]
      rw [Bool.not_eq_true] at hd
      rw [warnings, List.map_append]
      exact (hv hd).bind fun n => hrest.bind_silent fun ns => follows_pure (n.toList ++ ns)

/-- The children of a branch follow each other if there is nothing but them to prune. -/
theorem follows_readNode_branch {fields : Fields} {t : BranchType}
    (ht : typeOf? fields = some (.branch t))
    (ih : ∀ v, sizeOf v < sizeOf (Value.dict fields) → isDropped v = false →
      Follows (warnings (removed v)) (readNode false v) (readNode true (prune v))) :
    Follows (warnings (removed (.dict fields))) (readNode false (.dict fields))
      (readNode true (prune (.dict fields))) := by
  have hend : ∀ b : Branch, ∀ ns : List Node, Follows []
      (do Logged.lift b.check; return some (Node.branch b ns (readLocation fields)))
      (do Logged.lift b.check; return some (Node.branch b ns (readLocation fields))) :=
    fun b ns => follows_lift_bind fun _ => follows_pure _
  by_cases hitems : ∃ items, Fields.get? fields "children" = some (.list items)
  · obtain ⟨items, hitems⟩ := hitems
    obtain ⟨hprune, hremoved⟩ := prune_branch ht hitems
    have hkept := childItems_of_get? (Fields.get?_set_self "children"
      (.list (pruneEach items)) fields)
    have heach := follows_readEach fun v hv => ih v <|
      Nat.lt_trans (List.sizeOf_lt_of_mem hv) (Fields.sizeOf_items_lt hitems)
    rw [hprune, hremoved, readNode_branch ht, readNode_branch ((typeOf?_set_children _).trans ht),
      readBranch_set_children, readLocation_set_children, hkept, childItems_of_get? hitems]
    exact follows_lift_bind fun b => heach.bind_silent (hend b)
  · have hno : ∀ t items, typeOf? fields = some (.branch t) →
        Fields.get? fields "children" ≠ some (.list items) :=
      fun _ items _ h => hitems ⟨items, h⟩
    obtain ⟨hprune, hremoved⟩ := prune_of_no_items hno
    rw [hprune, hremoved, readNode_branch ht, readNode_branch ht]
    refine follows_lift_bind fun b => ?_
    rcases childItems_cases fields with ⟨_, hc⟩ | ⟨items, _, hg, -⟩ | ⟨f, hc⟩
    · rw [hc]
      have hnil : Follows [] (readEach false []) (readEach true []) := by
        rw [readEach, readEach]
        exact follows_pure []
      exact hnil.silent_bind (hend b)
    · exact absurd ⟨items, hg⟩ hitems
    · rw [hc]
      exact follows_throw f

/-- **Lenient reading follows strict reading of the pruned value**, by induction on the value. -/
theorem follows_readNode : ∀ v : Value, isDropped v = false →
    Follows (warnings (removed v)) (readNode false v) (readNode true (prune v))
  | .dict fields => fun hd => by
    rcases type_of_not_dropped hd with ⟨t, ht⟩ | ⟨f, hf⟩
    · cases t with
      | leaf t =>
        have hleaf : ∀ u items, typeOf? fields = some (.branch u) →
            Fields.get? fields "children" ≠ some (.list items) := by
          intro u items hu
          rw [ht] at hu
          cases hu
        obtain ⟨hprune, hremoved⟩ := prune_of_no_items hleaf
        rw [hprune, hremoved, readNode, readNode, readType_of_some ht, readType_of_some ht,
          pure_bind, pure_bind]
        exact follows_lift_bind fun l => follows_pure _
      | branch t => exact follows_readNode_branch ht fun v hv => follows_readNode v
    · -- A type that cannot be looked up is never one of a branch, so nothing below is pruned.
      have hnone : ∀ u items, typeOf? fields = some (.branch u) →
          Fields.get? fields "children" ≠ some (.list items) := by
        intro u items hu
        have hsome : readType true fields [] = (.ok (some (.branch u)), []) := by
          rw [readType_of_some hu]
          rfl
        rw [hf true] at hsome
        cases hsome
      obtain ⟨hprune, hremoved⟩ := prune_of_no_items hnone
      rw [hprune, hremoved, readNode, readNode, hf, hf]
      exact follows_throw f
  | .null | .bool _ | .int _ | .float _ | .str _ | .list _ => fun _ => by
    rw [prune, removed, readNode, readNode]
    · exact follows_throw _
    all_goals rintro _ ⟨⟩
termination_by v => sizeOf v
decreasing_by assumption

/-! ### Nothing to drop -/

theorem typeOf?_of_readNode {fields : Fields} {n : Option Node} {log log' : List Record}
    (h : readNode true (.dict fields) log = (.ok n, log')) :
    isDropped (.dict fields) = false ∧ ∃ t, typeOf? fields = some t := by
  by_cases hd : isDropped (.dict fields) = true
  · obtain ⟨f, hf⟩ := (readType_of_dropped hd).2
    rw [readNode, hf] at h
    cases h
  · rw [Bool.not_eq_true] at hd
    rcases type_of_not_dropped hd with ht | ⟨f, hf⟩
    · exact ⟨hd, ht⟩
    · rw [readNode, hf] at h
      cases h

theorem whole_of_readEach : ∀ {vs : List Value} {ns : List Node} {log log' : List Record},
    (∀ v ∈ vs, ∀ n log log', readNode true v log = (.ok n, log') →
      isDropped v = false ∧ prune v = v ∧ removed v = []) →
    readEach true vs log = (.ok ns, log') → pruneEach vs = vs ∧ removedEach vs = []
  | [], _, _, _, _, _ => by
    rw [pruneEach, removedEach]
    exact ⟨rfl, rfl⟩
  | v :: r, _, log, _, ih, h => by
    obtain ⟨hv, hr⟩ := List.forall_mem_cons.1 ih
    rw [readEach] at h
    obtain ⟨n, log₁, hn, h⟩ := bind_eq_ok.1 h
    obtain ⟨ns, log₂, hns, -⟩ := bind_eq_ok.1 h
    obtain ⟨hd, hprune, hremoved⟩ := hv n log log₁ hn
    obtain ⟨hprunes, hremoveds⟩ := whole_of_readEach hr hns
    rw [pruneEach, removedEach, hd, hprune, hremoved, hprunes, hremoveds]
    exact ⟨rfl, rfl⟩

/-- **In a value that strict reading accepts there is nothing to drop.** -/
theorem whole_of_readNode : ∀ (v : Value) {n : Option Node} {log log' : List Record},
    readNode true v log = (.ok n, log') → isDropped v = false ∧ prune v = v ∧ removed v = []
  | .dict fields, _, _, _, h => by
    obtain ⟨hd, t, ht⟩ := typeOf?_of_readNode h
    refine ⟨hd, ?_⟩
    by_cases hitems : ∃ u items, typeOf? fields = some (.branch u) ∧
        Fields.get? fields "children" = some (.list items)
    · obtain ⟨u, items, hu, hitems⟩ := hitems
      rw [readNode_branch hu, childItems_of_get? hitems] at h
      obtain ⟨b, log₁, -, h⟩ := bind_eq_ok.1 h
      obtain ⟨kept, log₂, hkept, h⟩ := bind_eq_ok.1 h
      obtain ⟨ns, log₃, hns, -⟩ := bind_eq_ok.1 h
      obtain rfl := Except.ok.inj (lift_eq_ok.1 hkept).1
      have hwhole := whole_of_readEach (fun v hv n log log' h =>
        have : sizeOf v < sizeOf (Value.dict fields) :=
          Nat.lt_trans (List.sizeOf_lt_of_mem hv) (Fields.sizeOf_items_lt hitems)
        whole_of_readNode v h) hns
      obtain ⟨hprune, hremoved⟩ := prune_branch hu hitems
      rw [hprune, hremoved, hwhole.1, hwhole.2, Fields.set_eq_self hitems]
      exact ⟨rfl, rfl⟩
    · exact prune_of_no_items fun u items hu h => hitems ⟨u, items, hu, h⟩
  | .null, _, _, _, h | .bool _, _, _, _, h | .int _, _, _, _, h | .float _, _, _, _, h
  | .str _, _, _, _, h | .list _, _, _, _, h => by
    rw [readNode] at h
    · cases h
    · rintro _ ⟨⟩
termination_by v => sizeOf v
decreasing_by assumption

/-! ### Lenient reading -/

theorem isSome_of_not_dropped {strict : Bool} {v : Value} {n : Option Node} {log log' : List Record}
    (hd : isDropped v = false) (h : readNode strict v log = (.ok n, log')) : n.isSome := by
  cases v with
  | dict fields =>
    rcases type_of_not_dropped hd with ⟨t, ht⟩ | ⟨f, hf⟩
    · exact isSome_of_readNode ht h
    · rw [readNode, hf] at h
      cases h
  | _ =>
    rw [readNode] at h
    · cases h
    · rintro _ ⟨⟩

/-- **Lenient reading is pruning and then strict reading.** A value that is dropped is read as nothing,
with one warning. Of any other value lenient reading gives what strict reading gives of the pruned
value, the same node or the same fault; with a node it gives one warning for each node that has been
removed, in their order. What strict reading accepts has nothing to remove, and lenient reading gives
the same node of it without a warning. -/
theorem readNode_lenient (v : Value) (log : List Record) :
    (isDropped v = true → readNode false v log = (.ok none, log ++ [dropWarning v])) ∧
    (isDropped v = false →
      (readNode false v log).1 = (readNode true (prune v) log).1 ∧
      ∀ n log', readNode false v log = (.ok n, log') →
        n.isSome ∧ log' = log ++ (removed v).map dropWarning) ∧
    ∀ n log', readNode true v log = (.ok n, log') →
      n.isSome ∧ removed v = [] ∧ readNode false v log = (.ok n, log) := by
  refine ⟨fun hd => readNode_of_dropped hd log, fun hd => ?_, fun n log' h => ?_⟩
  · rcases follows_readNode v hd log log with ⟨f, log', hy, hx⟩ | ⟨a, hy, hx⟩
    · refine ⟨by rw [hx, hy], fun n log'' h => ?_⟩
      rw [hx] at h
      cases h
    · refine ⟨by rw [hx, hy], fun n log'' h => ⟨isSome_of_not_dropped hd h, ?_⟩⟩
      rw [hx] at h
      cases h
      rfl
  · obtain ⟨hd, hprune, hremoved⟩ := whole_of_readNode v h
    refine ⟨isSome_of_not_dropped hd h, hremoved, ?_⟩
    rcases follows_readNode v hd log log with ⟨f, log'', hy, -⟩ | ⟨a, hy, hx⟩
    · rw [hprune, h] at hy
      cases hy
    · rw [hprune, h] at hy
      rw [hx, hremoved, warnings, List.map_nil, List.append_nil]
      cases hy
      rfl

/-- A paragraph as an object. -/
def paragraphObject (children : List Value) : Value :=
  .dict [("type", .str "paragraph"), ("children", .list children)]

/-- A paragraph with an unknown node whose children are no row, and a heading of no level in a node
without a type. -/
def overgrown : Value :=
  .dict [("type", .str "root"), ("children", .list [
    paragraphObject [.dict [("type", .str "text"), ("value", .str "a")],
      .dict [("type", .str "widget"), ("children", .int 5)]],
    .dict [("children", .list [.dict [("type", .str "heading"), ("depth", .int 9)]])]])]

theorem readNode_lenient_overgrown : isDropped overgrown = false ∧
    prune overgrown = .dict [("type", .str "root"), ("children", .list [
      paragraphObject [.dict [("type", .str "text"), ("value", .str "a")]]])] ∧
    (readNode false overgrown []).1 = (readNode true (prune overgrown) []).1 ∧
    ∃ log, readNode false overgrown [] =
        (.ok (some (.container .root [.container .paragraph [.text "a"]])), log) ∧
      log = (removed overgrown).map dropWarning ∧ log.length = 2 := by
  have hd : isDropped overgrown = false := by decide
  have hread : readNode false overgrown [] =
      (.ok (some (.container .root [.container .paragraph [.text "a"]])),
        [⟨.warning, .treeReader, "Unknown node type 'widget', skipping"⟩,
          ⟨.warning, .treeReader, "mdast node missing 'type' field, skipping"⟩]) := by cbv
  obtain ⟨-, hsame, -⟩ := readNode_lenient overgrown []
  obtain ⟨hfst, hlog⟩ := hsame hd
  exact ⟨hd, by cbv, hfst, _, hread, (hlog _ _ hread).2, rfl⟩

end Bulletin.Mdast
