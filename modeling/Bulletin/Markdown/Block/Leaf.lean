import Bulletin.Markdown.Block.Outline
import Bulletin.Markdown.Html
import Bulletin.Markdown.Label
import Bulletin.Markdown.Target
import Bulletin.Text.Lines

/-! # Leaf blocks

The rules for the blocks that hold no other blocks: code, headings, thematic breaks, HTML,
mathematics, and the definitions of links and of footnotes, which leave no block behind. -/

namespace Bulletin.Markdown.Leaf

/-! ### Code -/

/-- The lines before the first one that a test holds for, and the lines after it; all lines if it
holds for none. -/
def cutAt (test : List Char → Bool) : Source → Source × Source
  | [] => ([], [])
  | l :: ls =>
    if test l.text then ([], ls)
    else
      let (before, after) := cutAt test ls
      (l :: before, after)

/-- A fenced code block; a fence that is not valid is text. -/
def fencedCode : BlockRule := fun p l rest =>
  match fence? 3 l.text with
  | none => .absent
  | some f =>
    if !f.isValid then .refused
    else
      let (lines, rest) := cutAt f.isClosedBy rest
      let raw := lines.flatMap fun l => dropSpaces f.indent l.text ++ ['\n']
      let info :=
        if f.info.isEmpty then none else some (.ofList (Text.trim Text.isBlank (unescape f.info)))
      .taken (p.add (.code raw info) rest)

/-- Lines of indented code and blank lines at the start of lines, and the lines after them. -/
def spanIndented (lines : Source) : Source × Source :=
  lines.span fun l => isIndentedCode l.text || isBlankLine l.text

/-- An indented code block, which cannot interrupt a paragraph. -/
def indentedCode : BlockRule := fun p l rest =>
  if !isIndentedCode l.text then .absent
  else if p.inParagraph then .refused
  else
    let (lines, rest) := spanIndented (l :: rest)
    let raw := Text.joinWith ['\n'] (lines.map fun l => dropSpaces 4 (expandTo 4 l.text))
    .taken (p.add (.code (Text.trim (· = '\n') raw) none) rest)

/-! ### Headings and breaks -/

/-- The text of a heading without the number signs that close it. -/
def openHeading (text : List Char) : List Char :=
  let trimmed := Text.trimEnd Text.isBlank text
  let body := Text.trimEnd (· = '#') trimmed
  if body.length < trimmed.length && (body.isEmpty || body.getLast?.any Text.isBlank) then
    Text.trimEnd Text.isBlank body
  else text

/-- White space of ASCII. -/
def isAsciiBlank (c : Char) : Bool := c = ' ' || ('\t' ≤ c && c ≤ '\r')

/-- A heading with number signs. -/
def numberedHeading : BlockRule := fun p l rest =>
  match heading? 3 l.text with
  | some (level, text) =>
    .taken (p.add (.heading level (openHeading (Text.trim isAsciiBlank text))) rest)
  | none => .absent

/-- The paragraph before an underline, which becomes a heading. -/
def underlinedHeading : BlockRule := fun p l rest =>
  match underlineLevel? l.text, p.blocks with
  | some level, .paragraph text :: blocks =>
    if l.isLazy then .refused else .taken { p with blocks := .heading level text :: blocks, rest }
  | _, _ => .absent

/-- A thematic break. -/
def thematicBreak : BlockRule := fun p l rest =>
  if isThematicBreak 3 l.text then .taken (p.add .thematicBreak rest) else .absent

/-- A row of blank lines. -/
def blankLines : BlockRule := fun p l rest =>
  if isBlankLine l.text then .taken (p.add .blankLine (rest.dropWhile fun l => isBlankLine l.text))
  else .absent

/-! ### HTML -/

/-- The names of the tags that start a block. -/
def blockTags : List String :=
  ["address", "article", "aside", "base", "basefont", "blockquote", "body", "caption", "center",
    "col", "colgroup", "dd", "details", "dialog", "dir", "div", "dl", "dt", "fieldset",
    "figcaption", "figure", "footer", "form", "frame", "frameset", "h1", "h2", "h3", "h4", "h5",
    "h6", "head", "header", "hr", "html", "iframe", "legend", "li", "link", "main", "menu",
    "menuitem", "meta", "nav", "noframes", "ol", "optgroup", "option", "p", "param", "section",
    "source", "summary", "table", "tbody", "td", "tfoot", "th", "thead", "title", "tr", "track",
    "ul"]

/-- The names of the tags whose content is kept as it is. -/
def rawTags : List String := ["pre", "script", "style", "textarea"]

/-- How a block of HTML ends: at the end of a line that holds a given text, or at a blank line; the
last kind cannot interrupt a paragraph. -/
inductive HtmlEnd where
  | mark (stop : List Char) (from_ : Nat)
  | blank
  | blankUnlessParagraph
  deriving Repr

/-- The small form of the name of a tag. -/
def tagKey (name : List Char) : String := .ofList (name.map Char.toLower)

/-- The rest of a line after a tag that stands alone in it. -/
def isAlone (rest : Option (List Char)) : Bool := rest.any (·.all isSpaceOrTab)

/-- How the block of HTML ends that starts with a line, if one does. -/
def htmlStart? (l : List Char) : Option HtmlEnd :=
  match within? 3 l with
  | none => none
  | some r =>
    let mark := fun (start stop : String) =>
      if Text.startsWith r start.toList then
        some (HtmlEnd.mark stop.toList (indentOf l + start.length))
      else none
    match (mark "<!--" "-->").or <| (mark "<?" "?>").or (mark "<![CDATA[" "]]>") with
    | some e => some e
    | none =>
      match r with
      | '<' :: '!' :: c :: _ =>
        if Html.isLetter c then some (.mark ['>'] (indentOf l + 3)) else none
      | '<' :: '/' :: r =>
        (Html.tagName? r).bind fun (name, _) =>
          if blockTags.contains (tagKey name) then some .blank
          else if isAlone (Html.closeTag? r) then some .blankUnlessParagraph
          else none
      | '<' :: r =>
        (Html.tagName? r).bind fun (name, _) =>
          let key := tagKey name
          if rawTags.contains key then
            some (.mark ("</" ++ key ++ ">").toList (indentOf l + 1 + name.length))
          else if blockTags.contains key then some .blank
          else if isAlone (Html.openTag? r) then some .blankUnlessParagraph
          else none
      | _ => none

/-- The lines up to the first one that holds a text, and the lines after it. -/
def throughMark (stop : List Char) : Source → Source × Source
  | [] => ([], [])
  | l :: ls =>
    if (Html.past? stop l.text).isSome then ([l], ls)
    else
      let (before, after) := throughMark stop ls
      (l :: before, after)

/-- A block of HTML. -/
def html : BlockRule := fun p l rest =>
  let block := fun (lines rest : Source) => Outcome.taken (p.add (.html (Source.text lines)) rest)
  let toBlank := fun (_ : Unit) =>
    let (lines, rest) := rest.span fun l => !isBlankLine l.text
    block (l :: lines) rest
  match htmlStart? l.text with
  | none => .absent
  | some (.mark stop n) =>
    if (Html.past? stop (l.text.drop n)).isSome then block [l] rest
    else
      let (lines, rest) := throughMark stop rest
      block (l :: lines) rest
  | some .blank => toBlank ()
  | some .blankUnlessParagraph => if p.inParagraph then .refused else toBlank ()

/-- Whether a block of HTML starts with a line that may end a lazy paragraph. -/
def interruptsAsHtml (l : List Char) : Bool :=
  match htmlStart? l with
  | some .blankUnlessParagraph => false
  | e => e.isSome

/-! ### Mathematics -/

/-- The text of a formula that stands between double dollar signs in one line. -/
def formulaOfLine? (l : List Char) : Option (List Char) := do
  let r ← (within? 3 l).bind (Text.after? ['$', '$'])
  let r := Text.trimEnd isSpaceOrTab r
  if Text.endsWith r ['$', '$'] then some (r.take (r.length - 2)) else none

/-- A line that opens a formula of several lines. -/
def opensFormula (l : List Char) : Bool :=
  ((within? 3 l).bind (Text.after? ['$', '$'])).any (·.all isSpaceOrTab)

/-- A line that closes a formula. -/
def closesFormula (l : List Char) : Bool := (Text.after? ['$', '$'] l).any (·.all isSpaceOrTab)

/-- The lines of a formula, of which there is at least one, up to the line that closes it, and the
lines after that. -/
def formulaLines? : Source → Option (Source × Source)
  | [] => none
  | l :: ls =>
    match ls with
    | [] => none
    | c :: rest =>
      if closesFormula c.text then some ([l], rest)
      else (formulaLines? ls).map fun (lines, rest) => (l :: lines, rest)

/-- A formula that stands as a block. -/
def mathematics : BlockRule := fun p l rest =>
  match formulaOfLine? l.text with
  | some raw => .taken (p.add (.math raw) rest)
  | none =>
    if opensFormula l.text then
      match formulaLines? rest with
      | some (lines, rest) =>
        .taken (p.add (.math (Text.joinWith ['\n'] (lines.map (·.text)))) rest)
      | none => .absent
    else .absent

/-! ### Definitions -/

/-- The start of the definition of a link or a footnote, after its indentation: the label between
brackets and a colon, and the rest. -/
def labelled? (label : List Char → Option (List Char × List Char)) (s : List Char) :
    Option (List Char × List Char) :=
  match label s with
  | some (label, ':' :: rest) => some (label, rest)
  | _ => none

/-- The text before the first blank line of a text that starts inside a line. -/
def beforeBlank (s : List Char) : List Char :=
  match Text.splitAtChar '\n' s with
  | [] => []
  | l :: ls => Text.joinWith ['\n'] (l :: ls.takeWhile (!isBlankLine ·)) ++ ['\n']

/-- The rest of a text after a line that has nothing but spaces and tabs left. -/
def afterLine? (s : List Char) : Option (List Char) :=
  match s.dropWhile isSpaceOrTab with
  | '\n' :: r => some r
  | _ => none

/-- The target of a definition, and the rest after its last line. A title that is followed by
something else in its line is none. -/
def definitionTarget? (s : List Char) : Option (Target × List Char) := do
  let (address, r) ← definitionAddress? s
  let within := beforeBlank r
  let titled := do
    let (title, rest) ← title? within
    let rest ← afterLine? rest
    some (title, r.drop (within.length - rest.length))
  match titled with
  | some (title, rest) => some (.of address (some title), rest)
  | none => do
    let rest ← afterLine? r
    some (.of address none, rest)

/-- The definition of a link, which cannot interrupt a paragraph. -/
def linkDefinition : BlockRule := fun p l rest =>
  match (within? 3 l.text).bind (Text.after? ['[']) with
  | none => .absent
  | some r =>
    match labelled? label? (r ++ '\n' :: Source.text rest) with
    | none => .absent
    | some (label, after) =>
      let key := labelKey label
      if p.inParagraph || key.isEmpty then .refused
      else
        match definitionTarget? after with
        | none => .refused
        | some (t, after) =>
          let link : LinkDefinition :=
            ⟨key, .str t.address, t.title.elim .null .str, .str (.ofList label)⟩
          .taken { p with
            definitions := p.definitions.addLink link
            rest := rest.drop (rest.length - after.count '\n') }

/-- Lines of a footnote after its first: those that are indented by one to four spaces more than
its start, each with the empty lines after it. -/
def noteLines (indent : Nat) : Source → Source × Source
  | [] => ([], [])
  | l :: ls =>
    if l.text.isEmpty then
      let (lines, rest) := noteLines indent ls
      (l :: lines, rest)
    else if indent < indentOf l.text && indentOf l.text ≤ indent + 4 then
      let (lines, rest) := noteLines indent ls
      (l :: lines, rest)
    else ([], l :: ls)

/-- The definition of a footnote. -/
def noteDefinition : BlockRule := fun p l rest =>
  let take := fun (label first : List Char) (rest : Source) =>
    let (lines, rest) := noteLines (indentOf l.text) rest
    let text := first ++ '\n' :: Source.text lines
    Outcome.taken
      { p with definitions := p.definitions.addNote (labelKey label) text, rest := rest }
  match (within? 4 l.text).bind (Text.after? ['[', '^']) with
  | none => .absent
  | some r =>
    match labelled? noteLabel? r with
    | none => .absent
    | some (label, c :: first) => if isSpaceOrTab c then take label first rest else .absent
    | some (label, []) =>
      match rest with
      | [] => take label [] []
      | l :: rest => take label l.text rest

/-! ### Tables -/

/-- The pieces of a row between the bars that no backslash guards. -/
def splitBars (guarded : Bool) : List Char → List (List Char)
  | [] => [[]]
  | c :: r =>
    if c = '|' && !guarded then [] :: splitBars false r
    else
      match splitBars (c = '\\' && !guarded) r with
      | [] => [[c]]
      | l :: ls => (c :: l) :: ls

/-- The cells of a row without the bars around it. -/
def rowCells (row : List Char) : List (List Char) :=
  (splitBars false (Text.trim Text.isBlank row)).map (Text.trim Text.isBlank)

/-- The alignment that a cell of a delimiter row states; none for an empty cell, and nothing for a
cell that is not of its form. -/
def align? (cell : List Char) : Option (Option Align) :=
  let left := cell.head? = some ':'
  let right := cell.getLast? = some ':'
  let dashes := (cell.drop (if left then 1 else 0)).take
    (cell.length - (if left then 1 else 0) - (if right then 1 else 0))
  if cell.isEmpty then some none
  else if dashes.isEmpty || dashes.any (· != '-') then none
  else if left && right then some (some .center)
  else if left then some (some .left)
  else if right then some (some .right)
  else some none

/-- The alignments and the header cells of a table, if there are as many of one as of the other. -/
def tableHead? (header delimiters : List Char) :
    Option (List (Option Align) × List (List Char)) := do
  let cells := rowCells header
  let aligns ← (rowCells delimiters).mapM align?
  if aligns.length = cells.length then some (aligns, cells) else none

/-- The inside of a line that stands between bars. -/
def barred? (l : List Char) : Option (List Char) := do
  let r ← (within? 3 l).bind (Text.after? ['|'])
  let r := Text.trimEnd isSpaceOrTab r
  if r.getLast? = some '|' then some r.dropLast else none

/-- A character of a delimiter row. -/
def isDelimiter (c : Char) : Bool := c = '-' || c = ':' || c = '|' || c = ' '

/-- The rows of a table; nothing if a row has not as many cells as the table has columns. -/
def tableRows? (columns : Nat) (rows : List (List Char)) : Option (List (List (List Char))) :=
  rows.mapM fun row =>
    let cells := rowCells row
    if cells.length = columns then some cells else none

/-- The rest after a table: empty lines right after it go with it. -/
def afterTable (rest : Source) : Source := rest.dropWhile fun l => l.text.isEmpty

/-- A table whose lines stand between bars. -/
def barredTable : BlockRule := fun p l rest =>
  match barred? l.text, rest with
  | some (c :: header), d :: rest =>
    match barred? d.text with
    | some delimiters =>
      let start := (delimiters.dropWhile (· = ' ')).head?
      if delimiters.all isDelimiter && start.any fun c => c = '-' || c = ':' then
        let (body, rest) := rest.span fun l => (barred? l.text).isSome
        let lines := Text.splitLines (Source.text body)
        let table := do
          let (aligns, cells) ← tableHead? (c :: header) delimiters
          let rows ← lines.mapM fun l => (barred? l).filter (!·.isEmpty)
          let rows ← tableRows? aligns.length rows
          some (Outline.table aligns cells rows)
        match table with
        | some t => .taken (p.add t (afterTable rest))
        | none => .refused
      else .absent
    | none => .absent
  | _, _ => .absent

/-- A delimiter row without bars around it: marks, spaces, a bar, and then any of them. -/
def isBareDelimiters (s : List Char) : Bool :=
  let r := s.dropWhile fun c => c = '-' || c = ':'
  r.length < s.length && (r.dropWhile (· = ' ')).head? = some '|' && r.all isDelimiter

/-- A table without bars around its lines. -/
def bareTable : BlockRule := fun p l rest =>
  match within? 3 l.text, rest with
  | some (c :: header), d :: rest =>
    match within? 3 d.text with
    | some delimiters =>
      if !Text.isBlank c && header.contains '|' && isBareDelimiters delimiters then
        let (body, rest) := rest.span fun l => l.text.contains '|'
        let table := do
          let (aligns, cells) ← tableHead? (c :: header) delimiters
          let rows ← tableRows? aligns.length (Text.splitLines (Source.text body))
          some (Outline.table aligns cells rows)
        match table with
        | some t => .taken (p.add t (afterTable rest))
        | none => .refused
      else .absent
    | none => .absent
  | _, _ => .absent

end Bulletin.Markdown.Leaf
