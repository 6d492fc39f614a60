import Bulletin.Mdast.Node
import Bulletin.Value.Json

/-! # Writing document trees

A tree is written as a data value of the mdast shape, and that as JSON text. A place that is not
known is left out, and so is the start of a list that has none. -/

namespace Bulletin.Mdast

/-- Why a tree cannot be written. -/
inductive WriteFault where
  | noName
  | notIterable (typeName : String)
  deriving DecidableEq, Repr

/-- The words for a fault. -/
def WriteFault.message : WriteFault → String
  | .noName => "Unknown node type for serialization: UnsupportedNode"
  | .notIterable t => s!"'{t}' object is not iterable"

/-- A field that is left out if it is null. -/
def optional (key : String) : Value → Fields
  | .null => []
  | v => [(key, v)]

/-- The position field of a place. -/
def writeLocation : Option Location → Fields
  | none => []
  | some l =>
    [("position", .dict [("start", .dict (optional "line" l.line ++ optional "column" l.column))])]

/-- The fields of a leaf. -/
def Leaf.fields : Leaf → Except WriteFault Fields
  | .literal k v => .ok [("type", .str k.name), ("value", v)]
  | .code v lang => .ok [("type", .str "code"), ("lang", lang), ("value", v)]
  | .thematicBreak => .ok [("type", .str "thematicBreak")]
  | .lineBreak => .ok [("type", .str "break")]
  | .image url alt title =>
    .ok [("type", .str "image"), ("url", url), ("alt", alt), ("title", title)]
  | .footnoteReference identifier label =>
    .ok [("type", .str "footnoteReference"), ("identifier", identifier), ("label", label)]
  | .definition d =>
    .ok [("type", .str "definition"), ("identifier", d.identifier), ("label", d.label),
      ("url", d.url), ("title", d.title)]
  | .imageReference identifier alt label =>
    .ok [("type", .str "imageReference"), ("identifier", identifier), ("label", label),
      ("referenceType", .str "full"), ("alt", alt)]
  | .foreign k v name =>
    match k.name? with
    | none => .error .noName
    | some type =>
      if k.isElement then
        .ok [("type", .str type), ("name", name), ("attributes", .list []), ("children", .list [])]
      else .ok [("type", .str type), ("value", v)]

/-- The fields of a branch before its children. -/
def Branch.fields : Branch → Except WriteFault Fields
  | .container k => .ok [("type", .str k.name)]
  | .heading level => .ok [("type", .str "heading"), ("depth", level)]
  | .list ordered start =>
    .ok ([("type", .str "list"), ("ordered", ordered)] ++ optional "start" start)
  | .table align =>
    match align.items with
    | .ok items => .ok [("type", .str "table"), ("align", .list items)]
    | .error t => .error (.notIterable t)
  | .link url title => .ok [("type", .str "link"), ("url", url), ("title", title)]
  | .footnoteDefinition identifier label =>
    .ok [("type", .str "footnoteDefinition"), ("identifier", identifier), ("label", label)]
  | .linkReference identifier label =>
    .ok [("type", .str "linkReference"), ("identifier", identifier), ("label", label),
      ("referenceType", .str "full")]

mutual

/-- A tree as a data value. -/
def Node.toValue : Node → Except WriteFault Value
  | .leaf l p => do return .dict ((← l.fields) ++ writeLocation p)
  | .branch b ns p => do
    let fields ← b.fields
    let children ← Node.toValues ns
    return .dict (fields ++ [("children", .list children)] ++ writeLocation p)

/-- A row of trees as data values. -/
def Node.toValues : List Node → Except WriteFault (List Value)
  | [] => .ok []
  | n :: ns => do return (← n.toValue) :: (← Node.toValues ns)

end

/-- A tree as JSON text. -/
def Node.toJson (n : Node) (indent : Option Nat := none) : Except WriteFault String := do
  return Json.write (← n.toValue) indent

end Bulletin.Mdast
