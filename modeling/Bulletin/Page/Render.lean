import Bulletin.Log
import Bulletin.Mdast.Node
import Bulletin.Options
import Bulletin.Page.Grid
import Bulletin.Text.Width

/-! # Pages in bulletin board code

A document tree becomes a page by one walk. Each node gives its text and at most one effect on the
state of the walk: a link definition or a footnote is captured for the end of the page, a row is
appended to the table around it and a cell to the row around it. A table is walked in a state of
its own, and so is a row, which is why their cells know that they are inside a table. After the
body the captured footnotes are walked in the same state, so that they may capture more. -/

namespace Bulletin.Page

open Mdast (Node Leaf Branch)

/-- A captured footnote. -/
structure Footnote where
  identifier : Value
  label : Value
  children : List Node
  deriving Inhabited

/-- The state of a walk: what is captured so far, and the table and the row whose children are
being walked, if any. -/
structure State where
  definitions : List Mdast.Definition := []
  footnotes : List Footnote := []
  table : Option (List (List String)) := none
  row : Option (List String) := none
  deriving Inhabited

/-- Whether a state belongs to the inside of a table, where code has no markup of its own. -/
def State.inTable (s : State) : Bool := s.table.isSome || s.row.isSome

/-- A change of the state that a node asks for. -/
inductive Effect where
  | define (d : Mdast.Definition)
  | note (f : Footnote)
  | appendRow (cells : List String)
  | appendCell (text : String)

/-- The state after an effect; a row without a table and a cell without a row are lost. -/
def Effect.apply (s : State) : Effect → State
  | define d => { s with definitions := s.definitions ++ [d] }
  | note f => { s with footnotes := s.footnotes ++ [f] }
  | appendRow cells => { s with table := s.table.map (· ++ [cells]) }
  | appendCell text => { s with row := s.row.map (· ++ [text]) }

/-- What the visit of a node gives. A node that shows its value unchanged gives whatever that is. -/
structure Rendered where
  text : Value
  effect : Option Effect := none

/-- Why a walk fails: among the texts of siblings there is a value of another type. -/
inductive Fault where
  | notText (index : Nat) (typeName : String)
  | noChildren (typeName : String)
  deriving DecidableEq, Repr

/-- The words for a fault. -/
def Fault.message : Fault → String
  | .notText i t => s!"sequence item {i}: expected str instance, {t} found"
  | .noChildren t => s!"'{t}' object has no attribute 'children'"

/-- What a walk changes: the state, and the warnings given so far. -/
structure Pass where
  state : State := {}
  log : List Record := []

/-- A step of a walk. -/
abbrev Walk := ExceptT Fault (StateM Pass)

/-- The texts of siblings in a row; the first value that is no text is the fault. -/
def joinTexts (index : Nat) : List Value → Except Fault String
  | [] => .ok ""
  | .str s :: r => (joinTexts (index + 1) r).map (s ++ ·)
  | v :: _ => .error (.notText index v.typeName)

/-- A walk in a state of its own; the state before it comes back, and the last state of the walk
is given with its result. -/
def isolated {α : Type} (s : State) (w : Walk α) : Walk (α × State) :=
  fun p =>
    let (r, q) := w { p with state := s }
    (r.map fun a => (a, q.state), { q with state := p.state })

/-- Code inside a line: in the font of the options, or plain inside a table. -/
def monospace (o : PageOptions) (v : Value) : Walk Rendered := do
  if (← get).state.inTable then return ⟨v, none⟩
  else return ⟨.str ("[font=\"" ++ o.font.display ++ "\"]" ++ v.display ++ "[/font]"), none⟩

/-- A plain text. -/
def plain (s : String) : Rendered := ⟨.str s, none⟩

/-- A preformatted block. -/
def preformatted (v : Value) : String := "[code]" ++ v.display ++ "[/code]"

/-- The visit of a leaf. -/
def visitLeaf (o : PageOptions) : Leaf → Walk Rendered
  | .literal .text v => return ⟨v, none⟩
  | .literal .html v => return ⟨v, none⟩
  | .literal .inlineCode v => monospace o v
  | .literal .inlineMath v => monospace o v
  | .literal .math v => return plain ("\n" ++ preformatted v ++ "\n")
  | .literal .yaml v => return plain ("\n" ++ preformatted v ++ "\n\n")
  | .literal .toml v => return plain ("\n" ++ preformatted v ++ "\n\n")
  | .code v _ => return plain ("\n" ++ preformatted v ++ "\n")
  | .thematicBreak => return plain "\n\n[line]\n\n"
  | .lineBreak => return plain "\n\n"
  | .image url _ _ => return plain ("[img]" ++ url.display ++ "[/img]")
  | .footnoteReference identifier _ => return plain ("(See ^" ++ identifier.display ++ ")")
  | .definition d => return ⟨.str "", some (.define d)⟩
  | .imageReference identifier alt _ =>
    return plain ("[" ++ identifier.display ++ "] " ++ alt.display)
  | .foreign k _ _ => do
    modify fun p => { p with
      log := p.log ++ [⟨.warning, .renderer, k.category ++ " not supported in nexus bbcode"⟩] }
    return plain ""

/-- The text of a branch around that of its children; tables, rows, cells and footnotes apart. -/
def wrap (o : PageOptions) (content : String) : Branch → String
  | .container .paragraph => "\n" ++ content ++ "\n"
  | .container .blockquote => "[quote]" ++ content ++ "[/quote]\n"
  | .container .listItem =>
    "[*]" ++ (if Text.endsWith content.toList ['\n'] then content else content ++ "\n")
  | .container .emphasis => "[i]" ++ content ++ "[/i]"
  | .container .strong => "\n[b]" ++ content ++ "[/b]\n"
  | .container .delete => "[s]" ++ content ++ "[/s]"
  | .heading _ => "\n[size=" ++ o.headingSize.display ++ "]" ++ content ++ "[/size]\n\n"
  | .list ordered _ =>
    "\n" ++ (if ordered.truthy then "[list=1]" else "[list]") ++ "\n" ++ content ++ "[/list]"
  | .link url _ => "[url=" ++ url.display ++ "]" ++ content ++ "[/url]"
  | .linkReference identifier _ => "(See " ++ identifier.display ++ "; " ++ content ++ ")"
  | _ => content

/-- The grid of the rows of a table. -/
def drawRows (rows : List (List String)) : String :=
  .ofList (Grid.draw Text.width (rows.map (·.map String.toList)))

mutual

/-- The visit of a node. -/
def visit (o : PageOptions) : Node → Walk Rendered
  | .leaf l _ => visitLeaf o l
  | .branch b ns _ =>
    match b with
    | .container .tableRow => do
      if (← get).state.table.isNone then return plain ""
      else
        let (_, s) ← isolated { row := some [] } (renderChildren o ns)
        return ⟨.str "", some (.appendRow (s.row.getD []))⟩
    | .container .tableCell => do
      if (← get).state.row.isNone then return plain ""
      else return ⟨.str "", some (.appendCell (← renderChildren o ns))⟩
    | .table _ => do
      let (_, s) ← isolated { table := some [] } (renderChildren o ns)
      return plain ("[code]" ++ drawRows (s.table.getD []) ++ "[/code]\n")
    | .footnoteDefinition identifier label =>
      return ⟨.str "", some (.note ⟨identifier, label, ns⟩)⟩
    | b => do return plain (wrap o (← renderChildren o ns) b)

/-- The texts of siblings, each one's effect applied before the next is visited. -/
def visitEach (o : PageOptions) : List Node → Walk (List Value)
  | [] => return []
  | n :: ns => do
    let r ← visit o n
    modify fun p => { p with state := r.effect.elim p.state (·.apply p.state) }
    let rest ← visitEach o ns
    return r.text :: rest

/-- The text of siblings. -/
def renderChildren (o : PageOptions) (ns : List Node) : Walk String := do
  ExceptT.mk (pure (joinTexts 0 (← visitEach o ns)))

end

/-! ### The whole page -/

/-- The line of a captured link definition. -/
def definitionLine (d : Mdast.Definition) : String :=
  "\n^" ++ d.identifier.display ++ ": [url=" ++ d.url.display ++ "]" ++
    (d.title.orElse d.identifier).display ++ "[/url]"

/-- The lines of the captured footnotes from number `index` on, of which there are at most `fuel`
in the end. -/
def footnoteLines (o : PageOptions) (index : Nat) : Nat → Walk (List String)
  | 0 => return []
  | fuel + 1 => do
    match (← get).state.footnotes[index]? with
    | none => return []
    | some f =>
      let content ← renderChildren o f.children
      let line := "\n^" ++ f.identifier.display ++ ": " ++ Text.strip content
      let rest ← footnoteLines o (index + 1) fuel
      return line :: rest

/-- A text with runs of line feeds cut: more than two become two; `run` is the number of line
feeds right before it. -/
def collapse (run : Nat) : List Char → List Char
  | [] => []
  | c :: r =>
    if c = '\n' then if run < 2 then c :: collapse (run + 1) r else collapse (run + 1) r
    else c :: collapse 0 r

/-- A text without the line feeds right after list markers; the flag says that a marker or line
feeds after one came last, and `before` holds the two characters before. -/
def closeMarkers (afterMarker : Bool) (before : List Char) : List Char → List Char
  | [] => []
  | c :: r =>
    if c = '\n' && afterMarker then closeMarkers true before r
    else c :: closeMarkers (c = ']' && before = ['*', '[']) ([c] ++ before.take 1) r

/-- The last pass over a page: the white space around it is taken off, runs of line feeds are cut
to two, and the line feeds right after list markers are taken out. -/
def tidy (s : String) : String :=
  .ofList (closeMarkers false [] (collapse 0 (Text.trim Text.isBlank s.toList)))

/-- The page of the children of a node, before the last pass. -/
def assemble (o : PageOptions) (ns : List Node) : Walk String := do
  let body ← renderChildren o ns
  let notes ← footnoteLines o 0 (Node.sizes ns)
  let definitions := (← get).state.definitions.map definitionLine
  return body ++ "\n".intercalate definitions ++ "\n".intercalate notes

/-- The page of a document: what is below its root; a node that can have no children has none. -/
def render (o : PageOptions) (document : Node) : Logged Fault String :=
  match document with
  | .leaf l _ => throw (.noChildren l.className)
  | .branch _ [] _ => return ""
  | .branch _ ns _ =>
    fun log =>
      let (r, p) := (assemble o ns) { log := log }
      (r.map tidy, p.log)

end Bulletin.Page
