import Bulletin.Markdown.Block.Container

/-! # Reading blocks

The blocks of a text are read line by line: the first rule that is not absent decides, and a line
that no rule takes belongs to a paragraph. Containers nest up to a limit; their inside knows neither
tables nor displayed formulas nor footnotes. -/

namespace Bulletin.Markdown

/-- The extensions for blocks that are in force. -/
structure BlockExtensions where
  tables : Bool := false
  math : Bool := false
  footnotes : Bool := false
  deriving Inhabited

/-- Reading of the lines inside a container: the blocks, and the definitions after them. -/
abbrev Inside := Definitions → Source → List Outline × Definitions

namespace Blocks

/-- The rule for quotations. -/
def quote (inside : Inside) : BlockRule := fun p l rest =>
  match Container.quote? l rest with
  | none => .absent
  | some (lines, rest) =>
    let (children, definitions) := inside p.definitions lines
    .taken { blocks := .quote children :: p.blocks, definitions, rest }

/-- The items of a list from one on, the definitions after them, and the lines after the list;
`fuel` bounds the number of items. -/
def items (inside : Inside) (definitions : Definitions) (i : ItemStart) (isLazy : Bool)
    (rest : Source) : (fuel : Nat) → List (List Outline) × Definitions × Source
  | 0 => ([], definitions, rest)
  | fuel + 1 =>
    let (lines, following) := Container.item i isLazy rest
    let (children, definitions) := inside definitions lines
    match following with
    | .none rest => ([children], definitions, rest)
    | .item next rest =>
      let (others, definitions, rest) := items inside definitions next false rest fuel
      (children :: others, definitions, rest)

/-- The rule for lists. An item that is empty and one with a number other than 1 cannot interrupt a
paragraph. -/
def list (inside : Inside) : BlockRule := fun p l rest =>
  match itemStart? 3 l.text with
  | none => .absent
  | some i =>
    let start := i.number.filter (·.val ≠ 1)
    if p.inParagraph && (i.text.all Text.isBlank || start.isSome) then .refused
    else
      let (items, definitions, rest) :=
        items inside p.definitions i l.isLazy rest (rest.length + 1)
      .taken { blocks := .list i.number.isSome start items :: p.blocks, definitions, rest }

/-- The rules in force, in the order in which they are tried. -/
def rules (extensions : BlockExtensions) (inside : Option Inside) : List BlockRule :=
  let on := fun (b : Bool) (r : BlockRule) => if b then [r] else []
  let container := fun (r : Inside → BlockRule) => inside.toList.map r
  [Leaf.fencedCode, Leaf.indentedCode, Leaf.numberedHeading, Leaf.underlinedHeading,
    Leaf.thematicBreak] ++ container quote ++ on extensions.math Leaf.mathematics ++
    container list ++ on extensions.footnotes Leaf.noteDefinition ++
    [Leaf.linkDefinition, Leaf.html, Leaf.blankLines] ++
    on extensions.tables Leaf.barredTable ++ on extensions.tables Leaf.bareTable

/-- The progress after the first line that is left. -/
def step (rules : List BlockRule) (p : Progress) (l : SourceLine) (rest : Source) : Progress :=
  let outcome := rules.findSome? fun rule =>
    match rule p l rest with
    | .absent => none
    | .refused => some p.continueParagraph
    | .taken q => some q
  outcome.getD p.continueParagraph

/-- The progress after all lines; `fuel` bounds the number of steps, and each takes a line. -/
def run (rules : List BlockRule) : (fuel : Nat) → Progress → Progress
  | 0, p => p
  | fuel + 1, p =>
    match p.rest with
    | [] => p
    | l :: rest => run rules fuel (step rules p l rest)

/-- The blocks of lines under rules, and the definitions after them. -/
def all (rules : List BlockRule) : Inside := fun definitions lines =>
  let p := run rules lines.length { definitions, rest := lines }
  (p.blocks.reverse, p.definitions)

/-- The inside of a container in which others may nest `depth` deep. -/
def nested : (depth : Nat) → Inside
  | 0 => all (rules {} none)
  | depth + 1 => all (rules {} (some (nested depth)))

/-- The depth to which containers nest. -/
def depthLimit : Nat := 20

/-- The blocks of a whole text, and its definitions. -/
def ofText (extensions : BlockExtensions) (lines : Source) : List Outline × Definitions :=
  all (rules extensions (some (nested (depthLimit - 1)))) {} lines

/-- The blocks of the text of a footnote, and the definitions after them. -/
def ofNote (extensions : BlockExtensions) : Inside :=
  all (rules extensions (some (nested (depthLimit - 2))))

end Blocks

end Bulletin.Markdown
