import Bulletin.Failure

/-! # Nodes made piece by piece

A node without its children can be made from the name of its class and values for its fields, and
its fields can be set one by one. A class has fields that must be given and others that have a
default. Only a new heading is checked, for its level; setting a field checks nothing. -/

namespace Bulletin.Mdast

/-- A node without its children and its place. -/
inductive Piece where
  | leaf (leaf : Leaf)
  | branch (branch : Branch)
  deriving Inhabited, Repr

namespace Piece

/-- A piece with the default values of its fields, for every class. -/
def all : List Piece :=
  Container.all.map (fun k => branch (.container k)) ++
  Literal.all.map (fun k => leaf (.literal k .null)) ++
  (Foreign.all ++ [Foreign.other]).map (fun k => leaf (.foreign k (.str "") .null)) ++
  [branch (.heading .null), branch (.list (.bool false) .null), branch (.table (.list [])),
    branch (.link .null .null), branch (.footnoteDefinition .null .null),
    branch (.linkReference .null .null), leaf (.code .null .null), leaf .thematicBreak,
    leaf .lineBreak, leaf (.image .null (.str "") .null), leaf (.footnoteReference .null .null),
    leaf (.definition ⟨.null, .null, .null, .null⟩), leaf (.imageReference .null (.str "") .null)]

/-- The class name of a branch. -/
def branchName : Branch → String
  | .container k => k.className
  | .heading _ => "Heading"
  | .list .. => "List"
  | .table _ => "Table"
  | .link .. => "Link"
  | .footnoteDefinition .. => "FootnoteDefinition"
  | .linkReference .. => "LinkReference"

/-- The class name of a piece. -/
def className : Piece → String
  | leaf l => l.className
  | branch b => branchName b

/-- The piece of a class with its defaults. -/
def ofClass? (name : String) : Option Piece := all.find? (·.className == name)

/-- The fields that must be given for a new piece. -/
def required : Piece → List String
  | leaf (.literal ..) => ["value"]
  | leaf (.code ..) => ["value"]
  | leaf (.image ..) => ["url"]
  | leaf (.footnoteReference ..) => ["identifier"]
  | leaf (.definition _) => ["identifier", "url"]
  | leaf (.imageReference ..) => ["identifier"]
  | branch (.heading _) => ["level"]
  | branch (.link ..) => ["url"]
  | branch (.footnoteDefinition ..) => ["identifier"]
  | branch (.linkReference ..) => ["identifier"]
  | _ => []

/-- A leaf with a field set, if it has the field. -/
def setLeaf? : Leaf → String → Value → Option Leaf
  | .literal k _, "value", v => some (.literal k v)
  | .code _ lang, "value", v => some (.code v lang)
  | .code value _, "lang", v => some (.code value v)
  | .image _ alt title, "url", v => some (.image v alt title)
  | .image url _ title, "alt", v => some (.image url v title)
  | .image url alt _, "title", v => some (.image url alt v)
  | .footnoteReference _ label, "identifier", v => some (.footnoteReference v label)
  | .footnoteReference identifier _, "label", v => some (.footnoteReference identifier v)
  | .definition d, "identifier", v => some (.definition { d with identifier := v })
  | .definition d, "url", v => some (.definition { d with url := v })
  | .definition d, "title", v => some (.definition { d with title := v })
  | .definition d, "label", v => some (.definition { d with label := v })
  | .imageReference _ alt label, "identifier", v => some (.imageReference v alt label)
  | .imageReference identifier _ label, "alt", v => some (.imageReference identifier v label)
  | .imageReference identifier alt _, "label", v => some (.imageReference identifier alt v)
  | .foreign k _ name, "value", v => some (.foreign k v name)
  | .foreign k value _, "name", v => if k.isElement then some (.foreign k value v) else none
  | _, _, _ => none

/-- A branch with a field set, if it has the field. -/
def setBranch? : Branch → String → Value → Option Branch
  | .heading _, "level", v => some (.heading v)
  | .list _ start, "ordered", v => some (.list v start)
  | .list ordered _, "start", v => some (.list ordered v)
  | .table _, "align", v => some (.table v)
  | .link _ title, "url", v => some (.link v title)
  | .link url _, "title", v => some (.link url v)
  | .footnoteDefinition _ label, "identifier", v => some (.footnoteDefinition v label)
  | .footnoteDefinition identifier _, "label", v => some (.footnoteDefinition identifier v)
  | .linkReference _ label, "identifier", v => some (.linkReference v label)
  | .linkReference identifier _, "label", v => some (.linkReference identifier v)
  | _, _, _ => none

/-- A piece with a field set, if it has the field. -/
def set? : Piece → String → Value → Option Piece
  | leaf l, field, v => (setLeaf? l field v).map leaf
  | branch b, field, v => (setBranch? b field v).map branch

/-- A piece with fields set; the first one that it does not have is the failure. -/
def setAll (p : Piece) (fields : Fields) : Except Failure Piece :=
  fields.foldlM (fun p (field, v) =>
    match p.set? field v with
    | some p => .ok p
    | none => .error (Failure.unexpectedField p.className field)) p

/-- A new piece of a class with fields given. -/
def make (name : String) (fields : Fields) : Except Failure Piece := do
  match ofClass? name with
  | none => throw (Failure.noKey name)
  | some blank =>
    let p ← blank.setAll fields
    let missing := blank.required.filter fun s => !fields.has s
    if !missing.isEmpty then throw (Failure.missingFields name missing)
    match p with
    | branch b => b.check.mapError Failure.tree
    | leaf _ => pure ()
    return p

/-- The identifier of a piece that is captured when it is visited. -/
def identifier : Piece → Value
  | leaf (.definition d) => d.identifier
  | branch (.footnoteDefinition identifier _) => identifier
  | _ => .null

/-- A piece with a number in place of its identifier, if it is captured when it is visited. -/
def numbered (n : Nat) : Piece → Piece
  | leaf (.definition d) => leaf (.definition { d with identifier := .int n })
  | branch (.footnoteDefinition _ label) => branch (.footnoteDefinition (.int n) label)
  | p => p

end Piece

end Bulletin.Mdast
