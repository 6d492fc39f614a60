import Bulletin.Proofs.Mdast.Canonical

/-! # The faults of a document

What is wrong with a value as a document is listed node by node, without stopping at the first
fault: the fields that a node lacks, an alignment that is no list, a depth that is no number or out
of range, children that are no list, a type that is not known. Reading stops at the first fault of
this list, and gives a tree if the list is empty.

* `stops_readNode`: the reading of a node stops at the first of its faults.
* `stops_readDocument`: the same of a document. -/

namespace Bulletin.Mdast

open Bulletin.Proofs.Runs

/-! ### The faults of a value -/

/-- The fault of a result, if it is one. -/
def fault? {ε α : Type} : Except ε α → Option ε
  | .ok _ => none
  | .error e => some e

/-- The fields that a leaf of a type must have. -/
def LeafType.needs : LeafType → List String
  | image => ["url"]
  | footnoteReference => ["identifier"]
  | definition => ["identifier", "url"]
  | imageReference => ["identifier"]
  | _ => []

/-- The fields that a branch of a type must have. -/
def BranchType.needs : BranchType → List String
  | link => ["url"]
  | footnoteDefinition => ["identifier"]
  | linkReference => ["identifier"]
  | _ => []

/-- The faults of the needed fields that are not there. -/
def missing (fields : Fields) (needs : List String) : List Fault :=
  (needs.filter fun key => !fields.has key).map (.missingField (fields.getD "type"))

/-- The depth of a heading, which is one if it is not given. -/
def depthOf (fields : Fields) : Except Value.NotWhole Int :=
  ((fields.get? "depth").getD (.int 1)).toWhole

/-- The faults of the fields of a branch. -/
def BranchType.faults (fields : Fields) (t : BranchType) : List Fault :=
  match t with
  | heading => ((fault? (depthOf fields)).map .depth).toList
  | table => ((fault? ((fields.getD "align").orElse (.list [])).items).map .notIterable).toList
  | t => missing fields t.needs

/-- The faults that are found after the children of a branch: a level out of range. -/
def BranchType.lateFaults (fields : Fields) : BranchType → List Fault
  | heading =>
    match depthOf fields with
    | .ok n => if 1 ≤ n ∧ n ≤ 6 then [] else [.levelRange (.int n)]
    | .error _ => []
  | _ => []

/-- The known type of a node, if it has one. -/
def typeOf? (fields : Fields) : Option NodeType :=
  (fields.getD "type").text?.bind NodeType.ofName?

/-- The faults of the type of a node. A type that is missing or unknown is none in lenient reading,
which drops the node. -/
def typeFaults (strict : Bool) (fields : Fields) : List Fault :=
  match typeOf? fields with
  | some _ => []
  | none =>
    let type := fields.getD "type"
    if !type.truthy then if strict then [.noType] else []
    else
      match type with
      | .list _ => [.compoundType type.typeName]
      | .dict _ => [.compoundType type.typeName]
      | _ => if strict then [.unknownType type] else []

mutual

/-- **The faults of a value as a node**, in the order in which reading comes to them. -/
def faults (strict : Bool) (v : Value) : List Fault :=
  match v with
  | .dict fields =>
    typeFaults strict fields ++
      match typeOf? fields with
      | none => []
      | some (.leaf t) => missing fields t.needs
      | some (.branch t) =>
        t.faults fields ++
          match childItems fields with
          | .error f => [f]
          | .ok items => faultsEach strict items.1 ++ t.lateFaults fields
  | v => [.notObject v.typeName]
termination_by sizeOf v
decreasing_by exact items.2

/-- The faults of values as siblings. -/
def faultsEach (strict : Bool) (vs : List Value) : List Fault :=
  match vs with
  | [] => []
  | v :: r => faults strict v ++ faultsEach strict r
termination_by sizeOf vs

end

/-- **The faults of a value as a document.** -/
def documentFaults (strict : Bool) (v : Value) : List Fault :=
  match v with
  | .dict fields =>
    match Fields.getD fields "type" with
    | .str "root" => faults strict v
    | t => [.documentNotRoot t]
  | v => [.documentNotObject v.typeName]

/-! ### Where reading stops -/

section Stops
variable {α β : Type} {fs gs : List Fault} {log : List Record}

/-- A reading that stops at the first of some faults, and succeeds if there is none. -/
def Stops (fs : List Fault) (x : Logged Fault α) : Prop := ∀ log, fault? (x log).1 = fs.head?

theorem stops_pure (a : α) : Stops [] (pure a : Logged Fault α) := fun _ => rfl

theorem stops_throw (f : Fault) : Stops [f] (throw f : Logged Fault α) := fun _ => rfl

theorem stops_lift {x : Except Fault α} (h : fault? x = fs.head?) : Stops fs (Logged.lift x) :=
  fun _ => h

theorem stops_lift_error (f : Fault) (g : α → Logged Fault β) :
    Stops [f] (Logged.lift (.error f) >>= g) := fun _ => rfl

/-- **A sequence stops at the faults of its parts in turn.** What comes second need only be known for
the results that the first part gives. -/
theorem Stops.bind {x : Logged Fault α} {g : α → Logged Fault β} (hx : Stops fs x)
    (hg : ∀ a log log', x log = (.ok a, log') → Stops gs (g a)) : Stops (fs ++ gs) (x >>= g) := by
  intro log
  have h := hx log
  rw [List.head?_append]
  rcases hr : x log with ⟨e | a, log'⟩
  · rw [hr] at h
    rw [bind_error hr, ← h]
    rfl
  · rw [hr] at h
    rw [bind_ok hr, ← h, hg a log log' hr log']
    rfl

end Stops

/-! ### The parts of a node -/

theorem fault?_require (fields : Fields) (key : String) :
    fault? (require fields key) = (missing fields [key]).head? := by
  unfold require missing Fields.has
  cases h : fields.get? key <;> simp [fault?, h]

theorem missing_cons (fields : Fields) (key : String) (needs : List String) :
    missing fields (key :: needs) = missing fields [key] ++ missing fields needs := by
  unfold missing
  rw [← List.map_append, ← List.filter_append]
  rfl

/-- A needed field is asked for before the other needs of a node. -/
theorem fault?_require_bind {α : Type} {fields : Fields} {key : String} {needs : List String}
    {g : Value → Except Fault α} (hg : ∀ v, fault? (g v) = (missing fields needs).head?) :
    fault? (require fields key >>= g) = (missing fields (key :: needs)).head? := by
  rw [missing_cons, List.head?_append, ← fault?_require]
  cases require fields key with
  | error f => rfl
  | ok v => exact hg v

theorem fault?_mapError_bind {ε α β : Type} {x : Except ε α} {f : ε → Fault} {g : α → Except Fault β}
    (hg : ∀ a, fault? (g a) = none) :
    fault? (x.mapError f >>= g) = ((fault? x).map f).toList.head? := by
  cases x with
  | error e => rfl
  | ok a => exact hg a

/-- **A leaf is read unless it lacks a field.** -/
theorem fault?_readLeaf (fields : Fields) (t : LeafType) :
    fault? (t.read fields) = (missing fields t.needs).head? := by
  cases t with
  | image => exact fault?_require_bind fun _ => rfl
  | footnoteReference => exact fault?_require_bind fun _ => rfl
  | definition => exact fault?_require_bind fun _ => fault?_require_bind fun _ => rfl
  | imageReference => exact fault?_require_bind fun _ => rfl
  | foreign k =>
    rw [LeafType.read]
    split_ifs <;> rfl
  | _ => rfl

/-- **The fields of a branch are read unless one of them is missing or bad.** -/
theorem fault?_readBranch (fields : Fields) (t : BranchType) :
    fault? (t.read fields) = (t.faults fields).head? := by
  cases t with
  | heading => exact fault?_mapError_bind fun _ => rfl
  | table => exact fault?_mapError_bind fun _ => rfl
  | link => exact fault?_require_bind fun _ => rfl
  | footnoteDefinition => exact fault?_require_bind fun _ => rfl
  | linkReference => exact fault?_require_bind fun _ => rfl
  | _ => rfl

/-- **A branch whose fields are read is sound unless its level is out of range.** -/
theorem fault?_check {fields : Fields} {t : BranchType} {b : Branch} (h : t.read fields = .ok b) :
    fault? b.check = (t.lateFaults fields).head? := by
  cases t with
  | heading =>
    obtain ⟨n, hn, h⟩ := except_bind_eq_ok.1 h
    have hd : depthOf fields = .ok n := except_mapError_eq_ok.1 hn
    cases h
    rw [check_heading, BranchType.lateFaults, hd]
    dsimp only
    split_ifs <;> rfl
  | container _ | list =>
    cases h
    rfl
  | table | link | footnoteDefinition | linkReference =>
    obtain ⟨v, -, h⟩ := except_bind_eq_ok.1 h
    cases h
    rfl

theorem readType_of_some {strict : Bool} {fields : Fields} {t : NodeType}
    (h : typeOf? fields = some t) : readType strict fields = pure (some t) := by
  obtain ⟨s, hs, ht⟩ := Option.bind_eq_some_iff.1 h
  refine readType_of_name ?_ ht
  generalize Fields.getD fields "type" = type at hs ⊢
  cases type with
  | str r => exact congrArg Value.str (Option.some.inj hs)
  | _ => cases hs

/-- The type of a node that has no known one: reading stops there, or it drops the node. -/
theorem readType_of_none (strict : Bool) {fields : Fields} (h : typeOf? fields = none)
    (log : List Record) :
    (typeFaults strict fields = [] ∧ ∃ log', readType strict fields log = (.ok none, log')) ∨
      ∃ f, typeFaults strict fields = [f] ∧ readType strict fields log = (.error f, log) := by
  unfold typeFaults readType
  rw [h]
  unfold typeOf? at h
  generalize Fields.getD fields "type" = type at h ⊢
  by_cases ht : type.truthy = true
  · simp only [ht, Bool.not_true, Bool.false_eq_true, if_false]
    cases type with
    | list vs => exact .inr ⟨_, rfl, rfl⟩
    | dict fs => exact .inr ⟨_, rfl, rfl⟩
    | _ =>
      simp only [h]
      cases strict
      · exact .inl ⟨rfl, _, rfl⟩
      · exact .inr ⟨_, rfl, rfl⟩
  · simp only [Bool.not_eq_true] at ht
    simp only [ht, Bool.not_false, if_true]
    cases strict
    · exact .inl ⟨rfl, _, rfl⟩
    · exact .inr ⟨_, rfl, rfl⟩

/-! ### Whole trees -/

theorem stops_readEach {strict : Bool} : ∀ {vs : List Value},
    (∀ v ∈ vs, Stops (faults strict v) (readNode strict v)) →
      Stops (faultsEach strict vs) (readEach strict vs)
  | [], _ => by
    rw [faultsEach, readEach]
    exact stops_pure _
  | v :: r, ih => by
    rw [faultsEach, readEach]
    refine (ih v List.mem_cons_self).bind fun n _ _ _ => ?_
    rw [← List.append_nil (faultsEach strict r)]
    exact (stops_readEach fun w hw => ih w (List.mem_cons_of_mem v hw)).bind fun ns _ _ _ =>
      stops_pure _

/-- **Reading a node stops at the first of its faults.** -/
theorem stops_readNode (strict : Bool) : ∀ v : Value, Stops (faults strict v) (readNode strict v)
  | .dict fields => by
    intro log
    rw [faults, readNode]
    cases ht : typeOf? fields with
    | none =>
      dsimp only
      rw [List.append_nil]
      rcases readType_of_none strict ht log with ⟨hf, log', hr⟩ | ⟨f, hf, hr⟩
      · rw [bind_ok hr, hf]
        rfl
      · rw [bind_error hr, hf]
        rfl
    | some t =>
      rw [readType_of_some ht, pure_bind, typeFaults, ht]
      dsimp only
      rw [List.nil_append]
      cases t with
      | leaf t =>
        dsimp only
        rw [← List.append_nil (missing _ _)]
        exact (stops_lift (fault?_readLeaf fields t)).bind (fun l _ _ _ => stops_pure _) log
      | branch t =>
        dsimp only
        refine (stops_lift (fault?_readBranch fields t)).bind (fun b _ _ hb => ?_) log
        have hb : t.read fields = .ok b := (lift_eq_ok.1 hb).1
        cases hi : childItems fields with
        | error f => exact stops_lift_error f _
        | ok items =>
          have hs := stops_readEach fun v hv =>
            have : sizeOf v < sizeOf (Value.dict fields) :=
              Nat.lt_trans (List.sizeOf_lt_of_mem hv) items.2
            stops_readNode strict v
          have hl : Stops [] (Logged.lift (.ok items) : Logged Fault _) := stops_lift rfl
          refine hl.bind fun items' _ _ h => ?_
          obtain rfl : items = items' := Except.ok.inj (lift_eq_ok.1 h).1
          refine hs.bind fun ns _ _ _ => ?_
          rw [← List.append_nil (t.lateFaults fields)]
          exact (stops_lift (fault?_check hb)).bind fun _ _ _ _ => stops_pure _
  | .null | .bool _ | .int _ | .float _ | .str _ | .list _ => by
    intro log
    rw [faults, readNode]
    · rfl
    · rintro _ ⟨⟩
    · rintro _ ⟨⟩
termination_by v => sizeOf v
decreasing_by assumption

theorem isSome_of_readNode {strict : Bool} {fields : Fields} {t : NodeType} {n : Option Node}
    {log log' : List Record} (ht : typeOf? fields = some t)
    (h : readNode strict (.dict fields) log = (.ok n, log')) : n.isSome := by
  rw [readNode, readType_of_some ht, pure_bind] at h
  cases t with
  | leaf t =>
    obtain ⟨l, log₁, -, h⟩ := bind_eq_ok.1 h
    cases (pure_eq_ok.1 h).1
    rfl
  | branch t =>
    obtain ⟨b, log₁, -, h⟩ := bind_eq_ok.1 h
    obtain ⟨items, log₂, -, h⟩ := bind_eq_ok.1 h
    obtain ⟨ns, log₃, -, h⟩ := bind_eq_ok.1 h
    obtain ⟨⟨⟩, log₄, -, h⟩ := bind_eq_ok.1 h
    cases (pure_eq_ok.1 h).1
    rfl

/-- **Reading a document stops at the first of its faults.** -/
theorem stops_readDocument (strict : Bool) (v : Value) :
    Stops (documentFaults strict v) (readDocument strict v) := by
  cases v with
  | dict fields =>
    by_cases ht : Fields.getD fields "type" = .str "root"
    · have hf : documentFaults strict (.dict fields) = faults strict (.dict fields) := by
        simp only [documentFaults, ht]
      rw [readDocument_of_root ht, hf, ← List.append_nil (faults _ _)]
      refine (stops_readNode strict _).bind fun n log log' h => ?_
      have hs : typeOf? fields = some (.branch (.container .root)) := by
        rw [typeOf?, ht]
        rfl
      obtain ⟨m, rfl⟩ := Option.isSome_iff_exists.1 (isSome_of_readNode hs h)
      exact stops_pure m
    · have hf : documentFaults strict (.dict fields) =
          [.documentNotRoot (Fields.getD fields "type")] := by
        unfold documentFaults
        dsimp only
        split
        · next h => exact absurd h ht
        · rfl
      rw [readDocument_of_ne_root ht, hf]
      exact stops_throw _
  | _ => exact stops_throw _

end Bulletin.Mdast
