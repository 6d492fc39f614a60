import Bulletin.Text.Utf8
import Bulletin.Value.Yaml.Scalar

/-! # YAML

Reading a YAML document: mappings and lists in block and in flow form, scalars of every style,
anchors and aliases, and merged mappings. Tags and explicit keys are not read. A reader moves a
cursor over the text; what belongs together in block form is told by the column where a line
starts. The `fuel` of a reader bounds the number of its steps. -/

namespace Bulletin.Yaml

/-- What is wrong with a YAML document. -/
inductive Fault where
  | character
  | token
  | key
  | indentation
  | quote
  | escape
  | flow
  | blockHeader
  | alias
  | merge
  | documents
  deriving DecidableEq, Repr

/-- The words for a fault. -/
def Fault.message : Fault → String
  | .character => "special characters are not allowed"
  | .token => "found character that cannot start any token"
  | .key => "could not find expected ':'"
  | .indentation => "expected <block end>"
  | .quote => "found unexpected end of stream"
  | .escape => "found unknown escape character"
  | .flow => "expected ',' or a closing bracket"
  | .blockHeader => "expected chomping or indentation indicators"
  | .alias => "found undefined alias"
  | .merge => "expected a mapping or list of mappings for merging"
  | .documents => "expected a single document in the stream"

/-- A place in the text: what is left, the column, whether a block may start here, and the values
with an anchor so far. -/
structure Cursor where
  rest : List Char
  column : Nat := 0
  fresh : Bool := true
  anchors : List (String × Value) := []
  deriving Inhabited

/-- What a reader gives. -/
abbrev Found (α : Type) := α × Cursor

/-- Whether a text is at its end or goes on with white space. -/
def atGap (s : List Char) : Bool := s.head?.all fun c => c = ' ' || c = '\t' || c = '\n'

/-- Whether a line starts with three characters that mark a document. -/
def startsMark (mark : List Char) (s : List Char) : Bool :=
  ((Text.after? mark s).map atGap).getD false

/-- Whether a line starts with a mark between documents. -/
def startsAnyMark (s : List Char) : Bool :=
  startsMark ['-', '-', '-'] s || startsMark ['.', '.', '.'] s

namespace Cursor

/-- The cursor some characters further on the line. -/
def advance (c : Cursor) (n : Nat) : Cursor :=
  { c with rest := c.rest.drop n, column := c.column + n, fresh := false }

/-- What is left of a text after spaces, line feeds and comments, with its column and whether a
line was begun. -/
def skipFrom (comment : Bool) (column : Nat) (fresh : Bool) : List Char → List Char × Nat × Bool
  | [] => ([], column, fresh)
  | c :: r =>
    if c = '\n' then skipFrom false 0 true r
    else if comment || c = '#' then skipFrom true (column + 1) fresh r
    else if c = ' ' then skipFrom false (column + 1) fresh r
    else (c :: r, column, fresh)

/-- The cursor after spaces, line feeds and comments. -/
def skip (c : Cursor) : Cursor :=
  let (rest, column, fresh) := skipFrom false c.column c.fresh c.rest
  { c with rest, column, fresh }

/-- Whether the document ends here. -/
def atEnd (c : Cursor) : Bool := c.rest.isEmpty || (c.column = 0 && startsAnyMark c.rest)

/-- Whether an entry of a list in block form starts here. -/
def atEntry (c : Cursor) : Bool := c.fresh && c.rest.head? = some '-' && atGap (c.rest.drop 1)

end Cursor

/-! ### Plain scalars -/

/-- The characters that no plain scalar starts with. -/
def indicators : List Char := "-?:,[]\x7b\x7d#&*!|>'\"%@\x60".toList

/-- Whether a plain scalar starts here. -/
def startsPlain (flow : Bool) (s : List Char) : Bool :=
  match s with
  | [] => false
  | c :: r =>
    if c = ' ' || c = '\t' || c = '\n' then false
    else if indicators.contains c then
      !atGap r && (c = '-' || (!flow && (c = '?' || c = ':')))
    else true

/-- The characters of a plain scalar up to white space or to what ends it. -/
def plainChunk (flow : Bool) : List Char → List Char × List Char
  | [] => ([], [])
  | c :: r =>
    let stops := atGap [c] || (flow && [',', '?', '[', ']', '\x7b', '\x7d'].contains c) ||
      (c = ':' && (atGap r || (flow && r.head?.any [',', '[', ']', '\x7b', '\x7d'].contains)))
    if stops then ([], c :: r)
    else let (cs, r) := plainChunk flow r; (c :: cs, r)

/-- What line breaks between two parts of a scalar stand for: one is a space, of more the first is
dropped. -/
def foldBreaks (n : Nat) : List Char := if n = 1 then [' '] else List.replicate (n - 1) '\n'

/-- The line breaks and spaces at the start of a text, up to a mark between documents: the number
of breaks, what is left, and the column there. -/
def skipBreaks (breaks column : Nat) : List Char → Nat × List Char × Nat
  | [] => (breaks, [], column)
  | c :: r =>
    if column = 0 && 0 < breaks && startsAnyMark (c :: r) then (breaks, c :: r, column)
    else if c = '\n' then skipBreaks (breaks + 1) 0 r
    else if c = ' ' then skipBreaks breaks (column + 1) r
    else (breaks, c :: r, column)

/-- The plain scalar that goes on at the cursor after `before`; in block form a further line of it
starts at column `least` or later. -/
def readPlain (flow : Bool) (least : Nat) (before : List Char) : Nat → Cursor → Found (List Char)
  | 0, c => (before, c)
  | fuel + 1, c =>
    match plainChunk flow c.rest with
    | ([], _) => (before, c)
    | (chunk, rest) =>
      let text := before ++ chunk
      let here := c.advance chunk.length
      match skipBreaks 0 here.column rest with
      | (0, rest, column) =>
        let after := { here with rest, column }
        let spaces := column - here.column
        if spaces = 0 || rest.head? = some '#' || (plainChunk flow rest).1.isEmpty then
          (text, after)
        else readPlain flow least (text ++ List.replicate spaces ' ') fuel after
      | (n, rest, column) =>
        let after := { here with rest, column, fresh := true }
        if after.atEnd || rest.head? = some '#' || (!flow && column < least) ||
            (plainChunk flow rest).1.isEmpty then (text, after)
        else readPlain flow least (text ++ foldBreaks n) fuel after

/-! ### Quoted scalars -/

/-- The character that a one-letter escape stands for. -/
def escaped? : Char → Option Char
  | '0' => some (Char.ofNat 0)
  | 'a' => some '\x07'
  | 'b' => some '\x08'
  | 't' => some '\t'
  | '\t' => some '\t'
  | 'n' => some '\n'
  | 'v' => some '\x0B'
  | 'f' => some '\x0C'
  | 'r' => some '\r'
  | 'e' => some '\x1B'
  | ' ' => some ' '
  | '"' => some '"'
  | '\\' => some '\\'
  | '/' => some '/'
  | 'N' => some '\u0085'
  | '_' => some '\u00A0'
  | 'L' => some '\u2028'
  | 'P' => some '\u2029'
  | _ => none

/-- The number of digits after an escape that gives a code. -/
def codeLength? : Char → Option Nat
  | 'x' => some 2
  | 'u' => some 4
  | 'U' => some 8
  | _ => none

/-- The white space at the start of a text in quotes: the number of its line breaks, itself if it
has none, and what is left. -/
def quotedGap (s : List Char) : Nat × List Char × List Char :=
  let (gap, rest) := s.span fun c => c = ' ' || c = '\t' || c = '\n'
  (gap.count '\n', gap, rest)

/-- Whether a line of a gap starts with a mark between documents. -/
def gapHasMark (gap rest : List Char) : Bool := gap.getLast? = some '\n' && startsAnyMark rest

/-- The characters of a scalar in quotes up to its end, and what is left. -/
def readQuoted (double : Bool) : Nat → List Char → Except Fault (List Char × List Char)
  | 0, _ => .error .quote
  | _ + 1, [] => .error .quote
  | fuel + 1, c :: r => do
    if c = ' ' || c = '\t' || c = '\n' then
      let (breaks, gap, rest) := quotedGap (c :: r)
      if rest.isEmpty || gapHasMark gap rest then throw .quote
      let (cs, r) ← readQuoted double fuel rest
      return ((if breaks = 0 then gap else foldBreaks breaks) ++ cs, r)
    else if double && c = '\\' then
      match r with
      | [] => throw .quote
      | '\n' :: r =>
        let (breaks, _, rest) := quotedGap r
        let (cs, r) ← readQuoted double fuel rest
        return (List.replicate breaks '\n' ++ cs, r)
      | e :: r =>
        match escaped? e, codeLength? e with
        | some d, _ =>
          let (cs, r) ← readQuoted double fuel r
          return (d :: cs, r)
        | none, some n =>
          let ds := r.take n
          if ds.length = n && ds.all fun c => (Text.hexValue? c).isSome then
            let (cs, r) ← readQuoted double fuel (r.drop n)
            return (Char.ofNat (Text.ofDigits 16 ds) :: cs, r)
          else throw .escape
        | none, none => throw .escape
    else if double && c = '"' then return ([], r)
    else if !double && c = '\'' then
      match r with
      | '\'' :: r =>
        let (cs, r) ← readQuoted double fuel r
        return ('\'' :: cs, r)
      | _ => return ([], r)
    else
      let (cs, r) ← readQuoted double fuel r
      return (c :: cs, r)

/-- The column after some characters, starting at a column. -/
def columnAfter (column : Nat) (s : List Char) : Nat :=
  if s.contains '\n' then (s.reverse.takeWhile (· ≠ '\n')).length else column + s.length

/-- The scalar in quotes at the cursor, and whether it is on one line. -/
def readQuotedAt (c : Cursor) : Except Fault (Found (String × Bool)) := do
  let double := c.rest.head? = some '"'
  let (cs, rest) ← readQuoted double c.rest.length (c.rest.drop 1)
  let taken := c.rest.take (c.rest.length - rest.length)
  let after := { c with rest, column := columnAfter c.column taken, fresh := false }
  return ((.ofList cs, !taken.contains '\n'), after)

/-! ### Block scalars -/

/-- How a block scalar ends: with one line break, with none, or with all that there are. -/
inductive Chomping where
  | clip
  | strip
  | keep
  deriving DecidableEq, Inhabited

/-- The signs after the mark of a block scalar: its ending, and its indentation if that is given. -/
def blockHeader : List Char → Except Fault (Chomping × Option Nat)
  | [] => .ok (.clip, none)
  | c :: r =>
    if c = '+' || c = '-' then do
      let (_, n) ← blockHeader r
      return (if c = '+' then .keep else .strip, n)
    else if '1' ≤ c && c ≤ '9' then do
      let (h, _) ← blockHeader r
      return (h, some (c.toNat - 48))
    else .error .blockHeader

/-- The spaces at the start of a line. -/
def indentOf (line : List Char) : Nat := (line.takeWhile (· = ' ')).length

/-- Whether a line has nothing but spaces. -/
def isEmptyLine (line : List Char) : Bool := line.all (· = ' ')

/-- The lines that belong to a block scalar whose lines are indented by `n`. -/
def blockLines (n : Nat) : List (List Char) → List (List Char)
  | [] => []
  | l :: ls => if n ≤ indentOf l || isEmptyLine l then l.drop n :: blockLines n ls else []

/-- The lines of a block scalar with their breaks, `blanks` empty ones coming before: in folded
style a break between two lines that start without white space is a space, or is dropped before
empty lines. -/
def joinBlock (folded : Bool) (before : Option Bool) (blanks : Nat) :
    List (List Char) → List Char × Nat
  | [] => ([], blanks)
  | [] :: ls => joinBlock folded before (blanks + 1) ls
  | (c :: r) :: ls =>
    let text := !(c = ' ' || c = '\t')
    let gap :=
      match before with
      | none => List.replicate blanks '\n'
      | some textBefore =>
        if folded && textBefore && text then foldBreaks (blanks + 1)
        else List.replicate (blanks + 1) '\n'
    let (cs, n) := joinBlock folded (some text) 0 ls
    (gap ++ (c :: r) ++ cs, n)

/-- The block scalar whose mark stands at the cursor; its lines start at column `least` or later. -/
def readBlockScalar (least : Nat) (c : Cursor) : Except Fault (Found String) := do
  let folded := c.rest.head? = some '>'
  let (head, rest) := (c.rest.drop 1).span (· ≠ '\n')
  let (signs, after) := head.span fun c => c ≠ ' ' && c ≠ '#'
  let comment := after.dropWhile (· = ' ')
  if !(comment.isEmpty || comment.head? = some '#') then throw .blockHeader
  let (chomping, given) ← blockHeader signs
  let lines := Text.splitAtChar '\n' (rest.drop 1)
  let floor := max 1 least
  let leading := lines.takeWhile isEmptyLine
  let deepest := ((leading ++ (lines.drop leading.length).take 1).map indentOf).foldl max 0
  let n := (given.map (floor + · - 1)).getD (max floor deepest)
  let taken := blockLines n lines
  let (text, blanks) := joinBlock folded none 0 taken
  let left := lines.drop taken.length
  let breaks := blanks + (if left.isEmpty then 0 else 1) - (if text.isEmpty then 1 else 0)
  let ending := match chomping with
    | .strip => 0
    | .clip => if text.isEmpty then 0 else min 1 breaks
    | .keep => breaks
  let rest := Text.joinWith ['\n'] left
  return (.ofList (text ++ List.replicate ending '\n'), { c with rest, column := 0, fresh := true })

/-! ### Keys, anchors and mappings -/

/-- A key of a mapping: a text, or the sign that another mapping is merged. -/
inductive Key where
  | name (text : String)
  | merge
  deriving DecidableEq, Inhabited

/-- The key that a value is; a list and an object are none. -/
def keyOf : Value → Except Fault Key
  | .list _ => .error .key
  | .dict _ => .error .key
  | v => .ok (.name v.display)

/-- The key that a plain scalar is. -/
def plainKey (s : String) : Key := if s = "<<" then .merge else .name (resolve s).display

/-- The key on one line with a colon after it at the cursor, if there is one, and the cursor after
the colon. -/
def key? (c : Cursor) : Option (Found Key) :=
  let colon (k : Key) (after : Cursor) : Option (Found Key) :=
    let spaces := (after.rest.takeWhile (· = ' ')).length
    let after := after.advance spaces
    match after.rest with
    | ':' :: r => if atGap r then some (k, after.advance 1) else none
    | _ => none
  if !c.fresh then none
  else
    match c.rest with
    | [] => none
    | q :: _ =>
      if q = '"' || q = '\'' then
        match readQuotedAt c with
        | .ok ((s, true), after) => colon (.name s) after
        | _ => none
      else if startsPlain false c.rest then
        let line := c.rest.takeWhile (· ≠ '\n')
        let (s, after) := readPlain false 0 [] (line.length + 1) { c with rest := line }
        colon (plainKey (.ofList s)) (c.advance (after.column - c.column))
      else none

/-- The mappings that are merged by a value. -/
def mergedFields : Value → Except Fault Fields
  | .dict fs => .ok fs
  | .list vs => vs.foldrM (fun v rest =>
      match v with
      | .dict fs => .ok (rest ++ fs)
      | _ => .error .merge) []
  | _ => .error .merge

/-- The fields of a mapping, those of merged ones first. -/
def collect (pairs : List (Key × Value)) : Except Fault Value := do
  let own := pairs.filterMap fun (k, v) =>
    match k with
    | .name s => some (s, v)
    | .merge => none
  let merged ← pairs.mapM fun (k, v) =>
    match k with
    | .name _ => pure []
    | .merge => mergedFields v
  return .dict (Fields.ofList (merged.flatten ++ own))

/-- The name of an anchor or an alias at the cursor, after its sign. -/
def readName (c : Cursor) : Except Fault (Found String) :=
  let isName := fun (c : Char) => c.isAlphanum || c = '-' || c = '_'
  let name := (c.rest.drop 1).takeWhile isName
  let after := c.advance (name.length + 1)
  if name.isEmpty || !(atGap after.rest || after.rest.head?.any "?:,]\x7d%@\x60".toList.contains)
  then .error .alias
  else .ok (.ofList name, after)

/-- The value of the alias at the cursor. -/
def readAlias (c : Cursor) : Except Fault (Found Value) := do
  let (name, after) ← readName c
  match after.anchors.lookup name with
  | some v => return (v, after)
  | none => throw .alias

/-- The scalar or alias at the cursor. -/
def readScalar (flow : Bool) (least : Nat) (c : Cursor) : Except Fault (Found Value) := do
  match c.rest with
  | '*' :: _ => readAlias c
  | '"' :: _ => let ((s, _), after) ← readQuotedAt c; return (.str s, after)
  | '\'' :: _ => let ((s, _), after) ← readQuotedAt c; return (.str s, after)
  | _ =>
    if startsPlain flow c.rest then
      let (s, after) := readPlain flow least [] (c.rest.length + 1) c
      if s = ['='] || s = ['<', '<'] then throw .token
      return (resolve (.ofList s), after)
    else throw .token

/-! ### Flow form -/

/-- Whether a text starts with the sign of a merge. -/
def isMerge (s : List Char) : Bool := (plainChunk true s).1 = ['<', '<']

mutual

/-- The value in flow form at the cursor. -/
def readFlow : Nat → Cursor → Except Fault (Found Value)
  | 0, _ => .error .flow
  | fuel + 1, c => do
    let c := c.skip
    match c.rest with
    | '[' :: _ =>
      let (vs, c) ← readFlowItems fuel (c.advance 1)
      return (.list vs, c)
    | '{' :: _ =>
      let (pairs, c) ← readFlowPairs fuel (c.advance 1)
      return (← collect pairs, c)
    | '&' :: _ =>
      let (name, c) ← readName c
      let (v, c) ← readFlow fuel c
      return (v, { c with anchors := (name, v) :: c.anchors })
    | _ => readScalar true 0 c

/-- The value after a colon in flow form, null if there is none. -/
def readFlowValue : Nat → Cursor → Except Fault (Found Value)
  | 0, _ => .error .flow
  | fuel + 1, c =>
    let c := c.skip
    if c.rest.head?.any [',', ']', '\x7d'].contains then .ok (.null, c) else readFlow fuel c

/-- The items of a list in flow form up to its closing bracket. -/
def readFlowItems : Nat → Cursor → Except Fault (Found (List Value))
  | 0, _ => .error .flow
  | fuel + 1, c => do
    let c := c.skip
    if c.rest.head? = some ']' then return ([], c.advance 1)
    let (v, c) ← readFlow fuel c
    let c := c.skip
    let (v, c) ←
      match c.rest with
      | ':' :: _ => do
        let (w, c) ← readFlowValue fuel (c.advance 1)
        pure (← collect [(← keyOf v, w)], c.skip)
      | _ => pure (v, c)
    match c.rest with
    | ']' :: _ => return ([v], c.advance 1)
    | ',' :: _ =>
      let (vs, c) ← readFlowItems fuel (c.advance 1)
      return (v :: vs, c)
    | _ => throw .flow

/-- The fields of a mapping in flow form up to its closing brace. -/
def readFlowPairs : Nat → Cursor → Except Fault (Found (List (Key × Value)))
  | 0, _ => .error .flow
  | fuel + 1, c => do
    let c := c.skip
    if c.rest.head? = some '\x7d' then return ([], c.advance 1)
    let (k, c) ←
      if isMerge c.rest then pure (Key.merge, c.advance 2)
      else do let (v, c) ← readFlow fuel c; pure (← keyOf v, c)
    let c := c.skip
    let (v, c) ←
      match c.rest with
      | ':' :: _ => readFlowValue fuel (c.advance 1)
      | _ => pure (.null, c)
    let c := c.skip
    match c.rest with
    | '}' :: _ => return ([(k, v)], c.advance 1)
    | ',' :: _ =>
      let (pairs, c) ← readFlowPairs fuel (c.advance 1)
      return ((k, v) :: pairs, c)
    | _ => throw .flow

end

/-! ### Block form -/

mutual

/-- The value at the cursor in block form, null if none starts at column `least` or later; the
entries of a list may start one column before, if `entries` says so. -/
def readBlock (least : Nat) (entries : Bool) : Nat → Cursor → Except Fault (Found Value)
  | 0, _ => .error .indentation
  | fuel + 1, c => do
    let c := c.skip
    if c.atEnd then return (.null, c)
    else if c.fresh && c.column < least then
      if entries && c.column + 1 = least && c.atEntry then
        let (vs, c) ← readEntries c.column true fuel c
        return (.list vs, c)
      else return (.null, c)
    else if c.atEntry then
      let (vs, c) ← readEntries c.column false fuel c
      return (.list vs, c)
    else if (key? c).isSome then
      let (pairs, c) ← readPairs c.column fuel c
      return (← collect pairs, c)
    else
      match c.rest with
      | '&' :: _ =>
        let (name, c) ← readName c
        let (v, c) ← readBlock least entries fuel c
        return (v, { c with anchors := (name, v) :: c.anchors })
      | '|' :: _ => let (s, c) ← readBlockScalar least c; return (.str s, c)
      | '>' :: _ => let (s, c) ← readBlockScalar least c; return (.str s, c)
      | '[' :: _ => readFlow fuel c
      | '{' :: _ => readFlow fuel c
      | _ => readScalar false least c

/-- The entries of a list in block form whose dashes stand at a column; `shared` says that it is
the column of the mapping around it, which goes on after the list. -/
def readEntries (column : Nat) (shared : Bool) : Nat → Cursor → Except Fault (Found (List Value))
  | 0, _ => .error .indentation
  | fuel + 1, c => do
    let (v, c) ← readBlock (column + 1) false fuel { c.advance 1 with fresh := true }
    let c := c.skip
    if c.atEnd || (c.fresh && c.column < column) then return ([v], c)
    else if c.fresh && c.column = column then
      if c.atEntry then
        let (vs, c) ← readEntries column shared fuel c
        return (v :: vs, c)
      else if shared then return ([v], c)
      else throw .indentation
    else throw .indentation

/-- The pairs of a mapping in block form whose keys stand at a column. -/
def readPairs (column : Nat) : Nat → Cursor → Except Fault (Found (List (Key × Value)))
  | 0, _ => .error .indentation
  | fuel + 1, c => do
    match key? c with
    | none => throw .key
    | some (k, c) =>
      let (v, c) ← readBlock (column + 1) true fuel c
      let c := c.skip
      if c.atEnd || (c.fresh && c.column < column) then return ([(k, v)], c)
      else if c.fresh && c.column = column then
        let (pairs, c) ← readPairs column fuel c
        return ((k, v) :: pairs, c)
      else throw .indentation

end

/-! ### Documents -/

/-- Whether a character may stand in a document. -/
def isAllowed (c : Char) : Bool :=
  let n := c.toNat
  c = '\t' || c = '\n' || c = '\r' || (0x20 ≤ n && n ≤ 0x7E) || n == 0x85 ||
    (0xA0 ≤ n && n ≤ 0xD7FF) || (0xE000 ≤ n && n ≤ 0xFFFD) || 0x10000 ≤ n

/-- The cursor after the marks of ended documents. -/
def skipEnds : Nat → Cursor → Cursor
  | 0, c => c
  | fuel + 1, c =>
    let c := c.skip
    if c.column = 0 && startsMark ['.', '.', '.'] c.rest then skipEnds fuel (c.advance 3) else c

/-- The cursor after directives, and whether there were any. -/
def skipDirectives : Nat → Cursor → Cursor × Bool
  | 0, c => (c, false)
  | fuel + 1, c =>
    let c := c.skip
    match c.rest with
    | '%' :: r =>
      if c.column = 0 then
        let after := c.advance ((r.takeWhile (· ≠ '\n')).length + 1)
        ((skipDirectives fuel after).1, true)
      else (c, false)
    | _ => (c, false)

/-- The value of the only document of a text, null if it has none. -/
def readDocument (s : List Char) : Except Fault Value := do
  let fuel := 3 * s.length + 3
  let (c, directives) := skipDirectives fuel (skipEnds fuel { rest := s })
  let c ←
    if c.column = 0 && startsMark ['-', '-', '-'] c.rest then pure (c.advance 3)
    else if directives then throw .documents
    else pure c
  let (v, c) ← readBlock 0 false fuel c
  let c := c.skip
  if !c.atEnd then throw .indentation
  let c := skipEnds fuel c
  if c.rest.isEmpty then return v else throw .documents

/-- The value that a text writes. -/
def read (text : String) : Except Fault Value :=
  if text.toList.all isAllowed then
    readDocument (Text.dropMark (text.toList.map fun c => if c = '\u0085' then '\n' else c))
  else .error .character

end Bulletin.Yaml
