import Bulletin.Convert
import Bulletin.Mdast.Piece

/-! # A workbench for document trees

On a workbench nodes are made, changed and rendered step by step. A node stands in a cell, and its
children are named by the numbers of their cells, so that one node may stand in several places and
a change of it shows in all of them. States of a rendering walk are kept too, and nodes can be
visited in them one at a time; a state names the nodes that it has captured by their numbers. -/

namespace Bulletin

open Mdast (Node Piece Location)

namespace Workbench

/-- A node with its children by number. -/
structure Cell where
  piece : Piece
  children : List Nat := []
  location : Option Location := none
  deriving Inhabited

/-- A state of a walk, with the captured nodes by number. -/
structure Notes where
  definitions : List Nat := []
  footnotes : List Nat := []
  table : Option (List (List String)) := none
  row : Option (List String) := none
  deriving Inhabited

/-- What a name on the workbench stands for: a node, or none at all, or a state. -/
inductive Thing where
  | node (number : Option Nat)
  | notes (n : Notes)
  deriving Inhabited

/-- An effect of a visit, with the captured node by number. -/
inductive Effect where
  | define (number : Nat)
  | note (number : Nat)
  | appendRow (cells : List String)
  | appendCell (text : String)

end Workbench

open Workbench in
/-- A workbench: cells, named things, the options of the renderer, and the records so far. -/
structure Workbench where
  cells : Array Cell := #[]
  things : List (String × Thing) := []
  options : PageOptions := {}
  log : List Record := []
  deriving Inhabited

namespace Workbench

/-- A step on a workbench, which may fail. -/
abbrev Step := ExceptT Failure (StateM Workbench)

/-- The failure for a name that stands for nothing. -/
def unknownName (name : String) : Failure := .stated (.other "NoSuchId") name []

/-- The failure of a walk down a node that holds itself. -/
def endless : Failure := .stated (.other "RecursionError") "maximum recursion depth exceeded" []

/-- The type name of nothing. -/
def nothing : String := Value.null.typeName

/-- A computation that only reports, as a step. -/
def ofLogged {α : Type} (x : Logged Failure α) : Step α := ExceptT.mk fun b =>
  let (r, log) := x.run.run b.log
  (r, { b with log })

/-! ### Names and cells -/

/-- Names a thing. -/
def put (name : String) (t : Thing) : Step Unit :=
  modify fun b => { b with things := (name, t) :: b.things.filter (·.1 ≠ name) }

/-- The node with a name, by number; none if the name stands for no node at all. -/
def nodeNumber? (name : String) : Step (Option Nat) := do
  match (← get).things.lookup name with
  | some (.node n) => return n
  | _ => throw (unknownName name)

/-- The state with a name. -/
def notes (name : String) : Step Notes := do
  match (← get).things.lookup name with
  | some (.notes n) => return n
  | _ => throw (unknownName name)

/-- The node with a name, by number; that there is none is a failure, which tells what of it was
asked for. -/
def nodeNumber (name asked : String) : Step Nat := do
  match ← nodeNumber? name with
  | some n => return n
  | none =>
    throw (.stated .noAttribute s!"'{nothing}' object has no attribute '{asked}'" [])

/-- The cell with a number. -/
def cell (n : Nat) : Step Cell := return (← get).cells[n]?.getD default

/-- Changes the cell with a number. -/
def setCell (n : Nat) (c : Cell) : Step Unit :=
  modify fun b => { b with cells := b.cells.setIfInBounds n c }

/-- The number of a new cell. -/
def addCell (c : Cell) : Step Nat := do
  let b ← get
  set { b with cells := b.cells.push c }
  return b.cells.size

mutual

/-- The number of a new cell for a tree, whose nodes each get one. -/
def addTree : Node → Step Nat
  | .leaf l p => addCell ⟨.leaf l, [], p⟩
  | .branch b ns p => do addCell ⟨.branch b, ← addTrees ns, p⟩

/-- The numbers of new cells for trees. -/
def addTrees : List Node → Step (List Nat)
  | [] => return []
  | n :: ns => do return (← addTree n) :: (← addTrees ns)

end

/-- The tree at a cell, at most `fuel` levels deep. Where it is told, nodes that are captured by a
visit have their numbers for identifiers. -/
def treeAt (cells : Array Cell) (numbered : Bool) : Nat → Nat → Except Failure Node
  | 0, _ => .error endless
  | fuel + 1, n => do
    let c := cells[n]?.getD default
    match if numbered then c.piece.numbered n else c.piece with
    | .leaf l => return .leaf l c.location
    | .branch b => return .branch b (← c.children.mapM (treeAt cells numbered fuel)) c.location

/-- The tree at a cell; a node below itself is a failure. -/
def tree (n : Nat) (numbered : Bool := false) : Step Node := do
  let b ← get
  ofLogged (Logged.lift (treeAt b.cells numbered (b.cells.size + 1) n))

/-! ### Making and changing nodes -/

/-- The numbers of the nodes that a list of names stands for. -/
def numbersOf (names : Value) : Step (List Nat) := do
  match names with
  | .list vs => vs.mapM fun v => do nodeNumber (v.text?.getD "") "accept"
  | _ => return []

/-- The place that a value describes. -/
def locationOf : Value → Except Failure (Option Location)
  | .dict fields =>
    match fields.find? fun p => p.1 ≠ "line" && p.1 ≠ "column" with
    | some (field, _) => .error (Failure.unexpectedField "SourceLocation" field)
    | none => .ok (some ⟨Fields.getD fields "line", Fields.getD fields "column"⟩)
  | _ => .ok none

/-- Names a new node of a class, with fields given; its children are given by their names. -/
def make (name className : String) (fields : Fields) : Step Unit := do
  let children ← numbersOf (fields.getD "children")
  let location ← ofLogged (Logged.lift (locationOf (fields.getD "source_location")))
  let isBranch := (Piece.ofClass? className).any fun p =>
    match p with
    | .branch _ => true
    | .leaf _ => false
  let own := fields.filter fun p => p.1 ≠ "source_location" && !(isBranch && p.1 = "children")
  let piece ← ofLogged (Logged.lift (Piece.make className own))
  put name (.node (some (← addCell ⟨piece, children, location⟩)))

/-- Names the tree that a value holds, none if it is dropped. -/
def load (name : String) (strict : Bool) (v : Value) : Step Unit := do
  match ← ofLogged (Logged.mapError .tree (Mdast.readNode strict v)) with
  | none => put name (.node none)
  | some n => put name (.node (some (← addTree n)))

/-- The cell of a branch, which has children. -/
def branchCell (n : Nat) : Step Cell := do
  let c ← cell n
  match c.piece with
  | .branch _ => return c
  | .leaf l => throw (.page (.noChildren l.className))

/-- Adds a node at the end of the children of another, and gives their number. -/
def append (parent name : String) : Step Nat := do
  let n ← nodeNumber parent "children"
  let c ← branchCell n
  let child ← nodeNumber name "accept"
  setCell n { c with children := c.children ++ [child] }
  return c.children.length + 1

/-- Takes a child out, counted from the end if the index is negative, and gives the number of those
that stay. -/
def remove (parent : String) (index : Int) : Step Nat := do
  let n ← nodeNumber parent "children"
  let c ← branchCell n
  let i := if index < 0 then index + c.children.length else index
  if i < 0 || c.children.length ≤ i then
    throw (.stated .index "list assignment index out of range" [])
  setCell n { c with children := c.children.eraseIdx i.toNat }
  return c.children.length - 1

/-- Sets a field of a node; what is no field of it shows nowhere. -/
def setField (name field : String) (v : Value) : Step Unit := do
  let n ← nodeNumber name field
  let c ← cell n
  match field, v with
  | "children", .list [] => setCell n { c with children := [] }
  | "source_location", .null => setCell n { c with location := none }
  | _, _ => setCell n { c with piece := (c.piece.set? field v).getD c.piece }

/-! ### Looking at nodes -/

/-- The JSON text of a node, none where there is no node. -/
def dump (name : String) (indent : Option Nat) : Step (Option String) := do
  match ← nodeNumber? name with
  | none => return none
  | some n => return some (← ofLogged (Logged.lift (dumpTree (← tree n) indent)))

/-- Whether two nodes are equal with all that is below them. -/
def equal (first second : String) : Step Bool := do
  match ← nodeNumber? first, ← nodeNumber? second with
  | some m, some n => return (← tree m).equals (← tree n)
  | none, none => return true
  | _, _ => return false

/-- The page of a node. -/
def render (name : String) : Step String := do
  let document ← tree (← nodeNumber name "children")
  ofLogged (Logged.mapError .page (Page.render (← get).options document))

/-- Changes the options of the renderer, which stay as they are if a value is refused. -/
def changeOptions (changes : Fields) : Step Options := do
  match (Options.page (← get).options).update changes with
  | .ok (.page o) =>
    modify fun b => { b with options := o }
    return .page o
  | .ok o => return o
  | .error why => throw (.options why)

/-! ### Visits -/

/-- The number that stands for a captured node. -/
def numberOf (v : Value) : Nat := (v.whole?.map (·.toNat)).getD 0

/-- An effect of a walk, with the captured node by number. -/
def Effect.ofPage : Page.Effect → Effect
  | .define d => .define (numberOf d.identifier)
  | .note f => .note (numberOf f.identifier)
  | .appendRow cells => .appendRow cells
  | .appendCell text => .appendCell text

/-- A state after an effect. -/
def Effect.apply (s : Notes) : Effect → Notes
  | define n => { s with definitions := s.definitions ++ [n] }
  | note n => { s with footnotes := s.footnotes ++ [n] }
  | appendRow cells => { s with table := s.table.map (· ++ [cells]) }
  | appendCell text => { s with row := s.row.map (· ++ [text]) }

/-- A state with what a walk has captured in it. -/
def Notes.after (s : Notes) (w : Page.State) : Notes where
  definitions := s.definitions ++ w.definitions.map fun d => numberOf d.identifier
  footnotes := s.footnotes ++ w.footnotes.map fun f => numberOf f.identifier
  table := w.table
  row := w.row

/-- What a visit gives. -/
structure Visited where
  text : Value
  effect : Option Effect

/-- Visits a node in a state: the captured nodes stay in the state, and the effect of the node
itself is given. -/
def visit (name state : String) : Step Visited := do
  let n ← nodeNumber name "accept"
  let s ← notes state
  let node ← tree n true
  let b ← get
  let start : Page.State := { table := s.table, row := s.row }
  let (result, pass) := (Page.visit b.options node).run { state := start, log := b.log }
  set { b with log := pass.log }
  put state (.notes (s.after pass.state))
  match result with
  | .ok r => return ⟨r.text, r.effect.map Effect.ofPage⟩
  | .error f => throw (.page f)

/-- Applies an effect to a state. -/
def applyEffect (effect : Option Effect) (state : String) : Step Unit := do
  let s ← notes state
  put state (.notes (effect.elim s (Effect.apply s)))

/-- The identifiers of nodes as they are now. -/
def identifiers (numbers : List Nat) : Step (List Value) :=
  numbers.mapM fun n => do return (← cell n).piece.identifier

end Workbench

end Bulletin
