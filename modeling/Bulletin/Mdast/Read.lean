import Bulletin.Log
import Bulletin.Mdast.Node
import Bulletin.Value.Json
import Bulletin.Value.Whole

/-! # Reading document trees

A tree is read from a data value of the mdast shape. Strict reading fails at a node without a type
or of an unknown one; lenient reading drops such a node with its subtree and warns. All other
faults, a missing field, children that are no list, a bad heading depth or alignment, are failures
in both. -/

namespace Bulletin.Mdast

/-- Why a value is no document tree. -/
inductive Fault where
  | notObject (typeName : String)
  | noType
  | compoundType (typeName : String)
  | unknownType (type : Value)
  | childrenNotList (type : Value)
  | missingField (type : Value) (field : String)
  | depth (why : Value.NotWhole)
  | levelNotNumber (typeName : String)
  | levelRange (level : Value)
  | notIterable (typeName : String)
  | documentNotObject (typeName : String)
  | documentNotRoot (type : Value)

/-- How a fault is classed: a wrong value, a wrong type, or a number out of every range. -/
inductive Fault.Kind where
  | value
  | type
  | overflow
  deriving DecidableEq, Repr

namespace Fault

/-- The class of a fault. -/
def kind : Fault → Kind
  | compoundType _ => .type
  | depth (.otherType _) => .type
  | depth .infinite => .overflow
  | levelNotNumber _ => .type
  | notIterable _ => .type
  | _ => .value

/-- The words for a fault. -/
def message : Fault → String
  | notObject t => s!"mdast node must be an object, got {t}"
  | noType => "mdast node must contain a 'type' field"
  | compoundType t => s!"unhashable type: '{t}'"
  | unknownType v => s!"Unknown node type: {v.display}"
  | childrenNotList v => s!"'children' of {v.inner} node must be an array"
  | missingField v f => s!"{v.inner} node is missing required field '{f}'"
  | depth (.text s) =>
    "invalid literal for int() with base 10: " ++ .ofList ((Text.quoted s).toList.take 200)
  | depth (.excess digits) => Value.excessMessage digits
  | depth .notANumber => "cannot convert float NaN to integer"
  | depth .infinite => "cannot convert float infinity to integer"
  | depth (.otherType t) =>
    s!"int() argument must be a string, a bytes-like object or a real number, not '{t}'"
  | levelNotNumber t => s!"'<=' not supported between instances of 'int' and '{t}'"
  | levelRange v => s!"Heading level must be 1-6, got {v.display}"
  | notIterable t => s!"'{t}' object is not iterable"
  | documentNotObject t => s!"mdast document must be a JSON object, got {t}"
  | documentNotRoot v => s!"mdast document must have type 'root', got {v.inner}"

end Fault

/-! ### Node types -/

/-- The types of leaves. -/
inductive LeafType where
  | literal (kind : Literal)
  | code
  | thematicBreak
  | lineBreak
  | image
  | footnoteReference
  | definition
  | imageReference
  | foreign (kind : Foreign)
  deriving DecidableEq, Repr

/-- The types of branches. -/
inductive BranchType where
  | container (kind : Container)
  | heading
  | list
  | table
  | link
  | footnoteDefinition
  | linkReference
  deriving DecidableEq, Repr

/-- The types of nodes. -/
inductive NodeType where
  | leaf (type : LeafType)
  | branch (type : BranchType)
  deriving DecidableEq, Repr

/-- Every node type under its name. -/
def NodeType.table : List (String × NodeType) :=
  (Container.all.map fun k => (k.name, .branch (.container k)) : List (String × NodeType)) ++
  (Literal.all.map fun k => (k.name, .leaf (.literal k)) : List (String × NodeType)) ++
  (Foreign.all.filterMap fun k => k.name?.map fun s => (s, .leaf (.foreign k)) :
    List (String × NodeType)) ++
  ([("heading", .branch .heading), ("list", .branch .list), ("table", .branch .table),
    ("code", .leaf .code), ("link", .branch .link), ("image", .leaf .image),
    ("thematicBreak", .leaf .thematicBreak), ("break", .leaf .lineBreak),
    ("footnoteReference", .leaf .footnoteReference),
    ("footnoteDefinition", .branch .footnoteDefinition), ("definition", .leaf .definition),
    ("imageReference", .leaf .imageReference), ("linkReference", .branch .linkReference)] :
    List (String × NodeType))

/-- The node type of a name. -/
def NodeType.ofName? (name : String) : Option NodeType := List.lookup name table

/-! ### Fields -/

/-- A field that must be there. -/
def require (fields : Fields) (key : String) : Except Fault Value :=
  match fields.get? key with
  | some v => .ok v
  | none => .error (.missingField (fields.getD "type") key)

/-- The place of a node: the start of its position, if both are objects. -/
def readLocation (fields : Fields) : Option Location :=
  match fields.getD "position" with
  | .dict position =>
    match Fields.getD position "start" with
    | .dict start => some ⟨Fields.getD start "line", Fields.getD start "column"⟩
    | _ => none
  | _ => none

/-- A field that is an empty text if it is missing. -/
def textField (fields : Fields) (key : String) : Value := (fields.get? key).getD (.str "")

/-- A leaf of a type from its fields. -/
def LeafType.read (fields : Fields) : LeafType → Except Fault Leaf
  | literal k => .ok (.literal k (textField fields "value"))
  | code => .ok (.code (textField fields "value") (fields.getD "lang"))
  | thematicBreak => .ok .thematicBreak
  | lineBreak => .ok .lineBreak
  | image => do
    let url ← require fields "url"
    return .image url ((fields.getD "alt").orElse (.str "")) (fields.getD "title")
  | footnoteReference => do
    return .footnoteReference (← require fields "identifier") (fields.getD "label")
  | definition => do
    let identifier ← require fields "identifier"
    let url ← require fields "url"
    return .definition ⟨identifier, url, fields.getD "title", fields.getD "label"⟩
  | imageReference => do
    let identifier ← require fields "identifier"
    return .imageReference identifier ((fields.getD "alt").orElse (.str "")) (fields.getD "label")
  | foreign k =>
    if k.isElement then .ok (.foreign k (.str "") (fields.getD "name"))
    else .ok (.foreign k (textField fields "value") .null)

/-- A branch of a type from its fields, before its children are read. -/
def BranchType.read (fields : Fields) : BranchType → Except Fault Branch
  | container k => .ok (.container k)
  | heading => do
    let level ← (((fields.get? "depth").getD (.int 1)).toWhole.mapError Fault.depth)
    return .heading (.int level)
  | list => .ok (.list (.bool (fields.getD "ordered").truthy) (fields.getD "start"))
  | table => do
    let align ← (((fields.getD "align").orElse (.list [])).items.mapError Fault.notIterable)
    return .table (.list align)
  | link => do return .link (← require fields "url") (fields.getD "title")
  | footnoteDefinition => do
    return .footnoteDefinition (← require fields "identifier") (fields.getD "label")
  | linkReference => do
    return .linkReference (← require fields "identifier") (fields.getD "label")

/-- Whether a value lies between two whole numbers; true and false are one and zero. -/
def between (lo hi : Int) (v : Value) : Except String Bool :=
  match v with
  | .float x => .ok (x.atLeast lo && x.atMost hi)
  | v =>
    match v.whole? with
    | some n => .ok (lo ≤ n && n ≤ hi)
    | none => .error v.typeName

/-- The check of a finished branch: a heading has a level from 1 to 6. -/
def Branch.check : Branch → Except Fault Unit
  | .heading level => do
    if ← (between 1 6 level).mapError Fault.levelNotNumber then return ()
    else throw (.levelRange level)
  | _ => .ok ()

/-- The items of the children of a node, each smaller than the node. -/
def childItems (fields : Fields) :
    Except Fault { items : List Value // sizeOf items < sizeOf (Value.dict fields) } :=
  match h : fields.get? "children" with
  | none => .ok ⟨[], Fields.sizeOf_nil_lt fields⟩
  | some (.list items) => .ok ⟨items, Fields.sizeOf_items_lt h⟩
  | some _ => .error (.childrenNotList (fields.getD "type"))

/-- The type of a node, none if it is to be dropped. -/
def readType (strict : Bool) (fields : Fields) : Logged Fault (Option NodeType) :=
  let type := fields.getD "type"
  let drop := fun (f : Fault) (s : String) =>
    if strict then throw f
    else do
      Logged.report .warning .treeReader s
      return none
  if !type.truthy then drop .noType "mdast node missing 'type' field, skipping"
  else
    match type with
    | .list _ => throw (.compoundType type.typeName)
    | .dict _ => throw (.compoundType type.typeName)
    | _ =>
      match type.text?.bind NodeType.ofName? with
      | some t => return some t
      | none => drop (.unknownType type) s!"Unknown node type '{type.display}', skipping"

/-! ### Trees -/

mutual

/-- The tree that a value holds, none if it is dropped. -/
def readNode (strict : Bool) (v : Value) : Logged Fault (Option Node) :=
  match v with
  | .dict fields => do
    match ← readType strict fields with
    | none => return none
    | some (.leaf t) =>
      let l ← Logged.lift (t.read fields)
      return some (.leaf l (readLocation fields))
    | some (.branch t) =>
      let b ← Logged.lift (t.read fields)
      let items ← Logged.lift (childItems fields)
      let children ← readEach strict items.1
      Logged.lift b.check
      return some (.branch b children (readLocation fields))
  | v => throw (.notObject v.typeName)
termination_by sizeOf v
decreasing_by exact items.2

/-- The trees that a list of values holds, without the dropped ones. -/
def readEach (strict : Bool) (vs : List Value) : Logged Fault (List Node) :=
  match vs with
  | [] => return []
  | v :: r => do
    let n ← readNode strict v
    let ns ← readEach strict r
    return n.toList ++ ns
termination_by sizeOf vs

end

/-- The document that a value holds: its root must be an object of type `root`. -/
def readDocument (strict : Bool) (v : Value) : Logged Fault Node :=
  match v with
  | .dict fields => do
    match Fields.getD fields "type" with
    | .str "root" =>
      match ← readNode strict v with
      | some n => return n
      | none => throw (.documentNotRoot (.str "root"))
    | t => throw (.documentNotRoot t)
  | v => throw (.documentNotObject v.typeName)

end Bulletin.Mdast
