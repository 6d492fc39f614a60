import Bulletin.Text.Entity
import Bulletin.Value.Basic

/-! # TOML

Reading a TOML document. Its lines are statements: a header names the table that the following
lines are about, and a setting gives a value to a key. The tables grow as the statements are
carried out, and a statement that would define something twice is a fault. Inside values, a
reader takes the rest of the text and gives back what it leaves; its `fuel` bounds the number of
nested steps. A date or a time is kept as its text. -/

namespace Bulletin.Toml

open Number (Binary64)

/-- What is wrong with a TOML document. -/
inductive Fault where
  | statement
  | lineEnd
  | header
  | key
  | equals
  | value
  | unclosed
  | character
  | escape
  | repeated
  deriving DecidableEq, Repr

/-- The words for a fault. -/
def Fault.message : Fault → String
  | .statement => "Invalid statement"
  | .lineEnd => "Expected newline or end of document after a statement"
  | .header => "Expected a bracket at the end of a table declaration"
  | .key => "Invalid initial character for a key part"
  | .equals => "Expected '=' after a key in a key/value pair"
  | .value => "Invalid value"
  | .unclosed => "Unclosed value"
  | .character => "Illegal character"
  | .escape => "Invalid escape in a string"
  | .repeated => "Cannot overwrite a value"

/-- What a reader gives: a value and the text that is left. -/
abbrev Left (α : Type) := α × List Char

/-- A space or a tab. -/
def isSpace (c : Char) : Bool := c = ' ' || c = '\t'

/-- The rest of a text after spaces and tabs. -/
def skip (s : List Char) : List Char := s.dropWhile isSpace

/-- A control character other than a tab. -/
def isControl (c : Char) : Bool := (c.toNat < 0x20 && c ≠ '\t') || c.toNat == 0x7F

/-- The rest of a text after a comment, if it starts with one. -/
def skipComment (s : List Char) : Except Fault (List Char) :=
  match s with
  | '#' :: r =>
    let (comment, rest) := r.span (· ≠ '\n')
    if comment.any isControl then .error .character else .ok rest
  | _ => .ok s

/-- The rest of a text after white space, line feeds and comments; the fuel bounds their number. -/
def skipLines : Nat → List Char → Except Fault (List Char)
  | 0, s => .ok s
  | fuel + 1, s =>
    match s.dropWhile fun c => isSpace c || c = '\n' with
    | '#' :: r => do skipLines fuel (← skipComment ('#' :: r))
    | r => .ok r

/-! ### Strings -/

/-- The character that a one-letter escape stands for. -/
def escaped? : Char → Option Char
  | 'b' => some '\x08'
  | 't' => some '\t'
  | 'n' => some '\n'
  | 'f' => some '\x0C'
  | 'r' => some '\r'
  | '"' => some '"'
  | '\\' => some '\\'
  | _ => none

/-- The character whose code is written by digits. -/
def numbered? (ds : List Char) (width : Nat) : Option Char :=
  let n := Text.ofDigits 16 ds
  if ds.length = width && ds.all (fun c => (Text.hexValue? c).isSome) && n.isValidChar then
    some (Char.ofNat n)
  else none

/-- What an escape stands for, and the rest after it; the text starts after the backslash. A
backslash at the end of a line hides the white space after it, if the string has several lines. -/
def readEscape (manyLines : Bool) (s : List Char) : Except Fault (Left (List Char)) :=
  match s with
  | [] => .error .unclosed
  | 'u' :: r =>
    ((numbered? (r.take 4) 4).map fun c => Except.ok ([c], r.drop 4)).getD (.error .escape)
  | 'U' :: r =>
    ((numbered? (r.take 8) 8).map fun c => Except.ok ([c], r.drop 8)).getD (.error .escape)
  | c :: r =>
    match escaped? c with
    | some d => .ok ([d], r)
    | none =>
      if manyLines && (isSpace c || c = '\n') then
        match skip s with
        | '\n' :: r => .ok ([], r.dropWhile fun c => isSpace c || c = '\n')
        | [] => .ok ([], [])
        | _ => .error .escape
      else .error .escape

/-- The characters of a string in double quotes up to its end, of one line or of several. -/
def readQuoted (manyLines : Bool) : Nat → List Char → Except Fault (Left (List Char))
  | 0, _ => .error .unclosed
  | _ + 1, [] => .error .unclosed
  | fuel + 1, c :: r =>
    if c = '"' && (!manyLines || Text.startsWith r ['"', '"']) then
      .ok ([], if manyLines then r.drop 2 else r)
    else if c = '\\' then do
      let (cs, r) ← readEscape manyLines r
      let (ds, r) ← readQuoted manyLines fuel r
      return (cs ++ ds, r)
    else if isControl c && !(manyLines && c = '\n') then .error .character
    else (readQuoted manyLines fuel r).map fun (cs, r) => (c :: cs, r)

/-- The characters of a string in single quotes up to its end. -/
def readLiteral (manyLines : Bool) : List Char → Except Fault (Left (List Char))
  | [] => .error .unclosed
  | c :: r =>
    if c = '\'' && (!manyLines || Text.startsWith r ['\'', '\'']) then
      .ok ([], if manyLines then r.drop 2 else r)
    else if isControl c && !(manyLines && c = '\n') then .error .character
    else (readLiteral manyLines r).map fun (cs, r) => (c :: cs, r)

/-- A string of several lines with the quotes right after its end, of which two belong to it. -/
def withQuotes (q : Char) (cs rest : List Char) : List Char × List Char :=
  let n := min 2 (rest.takeWhile (· = q)).length
  (cs ++ rest.take n, rest.drop n)

/-- The text without a line feed at its start. -/
def dropBreak : List Char → List Char
  | '\n' :: r => r
  | s => s

/-- The string at the start of a text. -/
def readString (s : List Char) : Except Fault (Left String) :=
  match s with
  | '"' :: '"' :: '"' :: r =>
    (readQuoted true (r.length + 1) (dropBreak r)).map fun (cs, r) =>
      let (cs, r) := withQuotes '"' cs r
      (.ofList cs, r)
  | '"' :: r => (readQuoted false (r.length + 1) r).map fun (cs, r) => (.ofList cs, r)
  | '\'' :: '\'' :: '\'' :: r =>
    (readLiteral true (dropBreak r)).map fun (cs, r) =>
      let (cs, r) := withQuotes '\'' cs r
      (.ofList cs, r)
  | '\'' :: r => (readLiteral false r).map fun (cs, r) => (.ofList cs, r)
  | _ => .error .value

/-! ### Keys -/

/-- A character of a key without quotes. -/
def isBare (c : Char) : Bool := c.isAlphanum || c = '-' || c = '_'

/-- A part of a key: bare, or a string of one line. -/
def readKeyPart (s : List Char) : Except Fault (Left String) :=
  match s with
  | '"' :: r => (readQuoted false (r.length + 1) r).map fun (cs, r) => (.ofList cs, r)
  | '\'' :: r => (readLiteral false r).map fun (cs, r) => (.ofList cs, r)
  | _ =>
    let (cs, r) := s.span isBare
    if cs.isEmpty then .error .key else .ok (.ofList cs, r)

/-- The parts of a key, with points between them. -/
def readKey : Nat → List Char → Except Fault (Left (List String))
  | 0, _ => .error .key
  | fuel + 1, s => do
    let (k, r) ← readKeyPart s
    match skip r with
    | '.' :: r =>
      let (ks, r) ← readKey fuel (skip r)
      return (k :: ks, r)
    | r => return ([k], r)

/-! ### Numbers -/

/-- Digits of a class at the start of a text, with single underscores between them. -/
def digits (p : Char → Bool) : List Char → List Char × List Char
  | [] => ([], [])
  | c :: r =>
    if p c then let (ds, r) := digits p r; (c :: ds, r)
    else if c = '_' then
      match r with
      | [] => ([], c :: r)
      | d :: _ => if p d then digits p r else ([], c :: r)
    else ([], c :: r)

/-- Digits of a class that start with one. -/
def someDigits? (p : Char → Bool) (s : List Char) : Option (List Char × List Char) :=
  match s with
  | c :: _ => if p c then some (digits p s) else none
  | [] => none

/-- A whole number in another base than ten, after its zero. -/
def basedNumber? (s : List Char) : Option (Value × List Char) :=
  let read (base : Nat) (r : List Char) : Option (Value × List Char) :=
    (someDigits? (fun c => (Text.hexValue? c).any (· < base)) r).map fun (ds, r) =>
      (.int (Text.ofDigits base ds), r)
  match s with
  | '0' :: 'x' :: r => read 16 r
  | '0' :: 'o' :: r => read 8 r
  | '0' :: 'b' :: r => read 2 r
  | _ => none

/-- The digits after a point at the start of a text. -/
def fraction? (s : List Char) : Option (List Char × List Char) :=
  match s with
  | '.' :: r => someDigits? Char.isDigit r
  | _ => none

/-- The exponent at the start of a text. -/
def exponent? (s : List Char) : Option (Int × List Char) :=
  match s with
  | e :: r =>
    if e = 'e' || e = 'E' then
      let (negative, r) :=
        match r with
        | '-' :: r => (true, r)
        | '+' :: r => (false, r)
        | r => (false, r)
      (someDigits? Char.isDigit r).map fun (ds, r) =>
        let n : Int := Text.ofDigits 10 ds
        (if negative then -n else n, r)
    else none
  | [] => none

/-- A decimal number, after its sign. -/
def decimal? (negative : Bool) (s : List Char) : Option (Value × List Char) := do
  let (ds, r) ←
    match s with
    | '0' :: r => some (['0'], r)
    | _ => someDigits? Char.isDigit s
  match fraction? r, exponent? ((fraction? r).elim r (·.2)) with
  | none, none =>
    let n : Int := Text.ofDigits 10 ds
    return (.int (if negative then -n else n), r)
  | frac, power =>
    let (fs, r) := frac.getD ([], r)
    let (e, r) := power.getD (0, r)
    return (.float (.ofDecimal negative (Text.ofDigits 10 (ds ++ fs)) (e - fs.length)), r)

/-- The words that are values. -/
def words : List (List Char × Value) :=
  [("true".toList, .bool true), ("false".toList, .bool false),
    ("inf".toList, .float (.infinite false)), ("nan".toList, .float .nan),
    ("+inf".toList, .float (.infinite false)), ("+nan".toList, .float .nan),
    ("-inf".toList, .float (.infinite true)), ("-nan".toList, .float .nan)]

/-- The number or the word at the start of a text. -/
def readPlain (s : List Char) : Except Fault (Left Value) :=
  let found :=
    match s with
    | '-' :: r => decimal? true r
    | '+' :: r => decimal? false r
    | _ => (basedNumber? s).orElse fun _ => decimal? false s
  match found.orElse fun _ => words.findSome? fun (w, v) => (Text.after? w s).map (v, ·) with
  | some r => .ok r
  | none => .error .value

/-! ### Dates and times -/

/-- Whether a text follows a pattern, in which a zero stands for any digit. -/
def follows : (pattern s : List Char) → Bool
  | [], _ => true
  | p :: ps, c :: cs => (if p = '0' then c.isDigit else p = c) && follows ps cs
  | _ :: _, [] => false

/-- The length of a time of day at the start of a text, with its fraction. -/
def timeLength (s : List Char) : Nat :=
  if follows "00:00:00".toList s then
    match s.drop 8 with
    | '.' :: r => let n := (r.takeWhile Char.isDigit).length; if n = 0 then 8 else 9 + n
    | _ => 8
  else 0

/-- The length of the offset of a time at the start of a text. -/
def offsetLength (s : List Char) : Nat :=
  match s with
  | 'Z' :: _ => 1
  | 'z' :: _ => 1
  | c :: r => if (c = '+' || c = '-') && follows "00:00".toList r then 6 else 0
  | [] => 0

/-- The length of a date or a time at the start of a text, zero if there is none. -/
def dateLength (s : List Char) : Nat :=
  if follows "0000-00-00".toList s then
    match s.drop 10 with
    | c :: r =>
      let n := if c = 'T' || c = 't' || c = ' ' then timeLength r else 0
      if n = 0 then 10 else 11 + n + offsetLength (r.drop n)
    | [] => 10
  else timeLength s

/-! ### Values -/

/-- The fields of a table written in braces with one more; a key that leads through what is no
table, or is there already, is a fault. -/
def addField (fields : Fields) (v : Value) : List String → Except Fault Fields
  | [] => .error .key
  | [k] => if fields.has k then .error .repeated else .ok (fields.set k v)
  | k :: ks => do
    match (fields.get? k).getD (.dict []) with
    | .dict inner => return fields.set k (.dict (← addField inner v ks))
    | _ => throw .repeated

mutual

/-- The value at the start of a text. -/
def readValue : Nat → List Char → Except Fault (Left Value)
  | 0, _ => .error .value
  | fuel + 1, s =>
    match s with
    | '"' :: _ => (readString s).map fun (t, r) => (.str t, r)
    | '\'' :: _ => (readString s).map fun (t, r) => (.str t, r)
    | '[' :: r => (readItems fuel r).map fun (vs, r) => (.list vs, r)
    | '{' :: r =>
      match skip r with
      | '}' :: r => .ok (.dict [], r)
      | r => (readFields fuel [] [] r).map fun (fs, r) => (.dict fs, r)
    | _ =>
      match dateLength s with
      | 0 => readPlain s
      | n => .ok (.str (.ofList (s.take n)), s.drop n)

/-- The items of a list up to its closing bracket. -/
def readItems : Nat → List Char → Except Fault (Left (List Value))
  | 0, _ => .error .unclosed
  | fuel + 1, s => do
    match ← skipLines (s.length + 1) s with
    | ']' :: r => return ([], r)
    | r =>
      let (v, r) ← readValue fuel r
      match ← skipLines (r.length + 1) r with
      | ']' :: r => return ([v], r)
      | ',' :: r =>
        let (vs, r) ← readItems fuel r
        return (v :: vs, r)
      | _ => throw .unclosed

/-- The fields of a table in braces after those that are read, with the keys that they were given
by; what such a key stands for cannot be added to. -/
def readFields : Nat → Fields → List (List String) → List Char → Except Fault (Left Fields)
  | 0, _, _, _ => .error .unclosed
  | fuel + 1, fields, keys, s => do
    let (key, r) ← readKey (s.length + 1) s
    match r with
    | '=' :: r =>
      let (v, r) ← readValue fuel (skip r)
      if keys.any (·.isPrefixOf key) then throw .repeated
      let fields ← addField fields v key
      match skip r with
      | '}' :: r => return (fields, r)
      | ',' :: r => readFields fuel fields (key :: keys) (skip r)
      | _ => throw .unclosed
    | _ => throw .equals

end

/-! ### Tables -/

/-- What stands under a key while the document is read. A table may be opened again unless it is
closed from a section on that has come; a list of tables grows at its end. -/
inductive Item where
  | value (v : Value)
  | table (closedFrom : Option Nat) (entries : List (String × Item))
  | tables (done : List Item) (entries : List (String × Item))
  deriving Inhabited

/-- The entries of a table. -/
abbrev Entries := List (String × Item)

/-- The entries with the one under a key changed, or made. -/
def alter (k : String) (f : Option Item → Except Fault Item) : Entries → Except Fault Entries
  | [] => do return [(k, ← f none)]
  | (j, old) :: r => do
    if j = k then return (j, ← f (some old)) :: r else return (j, old) :: (← alter k f r)

/-- The entries with a change in the table at a path; the last table of a list stands for it. -/
def within (f : Entries → Except Fault Entries) : List String → Entries → Except Fault Entries
  | [], es => f es
  | k :: ks, es =>
    alter k (fun
      | none => do return .table none (← within f ks [])
      | some (.table c es) => do return .table c (← within f ks es)
      | some (.tables done es) => do return .tables done (← within f ks es)
      | some (.value _) => throw .repeated) es

/-- Whether a table is closed in a section. -/
def isClosed (part : Nat) (closedFrom : Option Nat) : Bool := closedFrom.any (· ≤ part)

/-- The entries with a table opened by the header of a section. -/
def openTable (part : Nat) (k : String) (es : Entries) : Except Fault Entries :=
  alter k (fun
    | none => .ok (.table (some part) [])
    | some (.table c es) =>
      if isClosed part c then .error .repeated else .ok (.table (some part) es)
    | some _ => .error .repeated) es

/-- The entries with a table added at the end of a list of tables. -/
def addTable (k : String) (es : Entries) : Except Fault Entries :=
  alter k (fun
    | none => .ok (.tables [] [])
    | some (.tables done es) => .ok (.tables (done ++ [.table none es]) [])
    | some _ => .error .repeated) es

/-- The entries with a setting; the tables on the way to its key are closed for the sections
after this one. -/
def addSetting (part : Nat) (v : Value) : List String → Entries → Except Fault Entries
  | [], _ => .error .key
  | [k], es =>
    alter k (fun
      | none => .ok (.value v)
      | some _ => .error .repeated) es
  | k :: ks, es =>
    alter k (fun
      | none => do return .table (some (part + 1)) (← addSetting part v ks [])
      | some (.table c es) =>
        if isClosed part c then throw .repeated
        else do return .table (some (c.getD (part + 1))) (← addSetting part v ks es)
      | some _ => throw .repeated) es

mutual

/-- An item as a value. -/
def Item.toValue : Item → Value
  | .value v => v
  | .table _ es => .dict (Item.toFields es)
  | .tables done es => .list (Item.toValues done ++ [.dict (Item.toFields es)])

/-- Items as values. -/
def Item.toValues : List Item → List Value
  | [] => []
  | i :: is => i.toValue :: Item.toValues is

/-- Entries as fields. -/
def Item.toFields : List (String × Item) → Fields
  | [] => []
  | (k, i) :: es => (k, i.toValue) :: Item.toFields es

end

/-! ### Statements -/

/-- A document that is being read: the entries of its root, the path of the table that settings go
to, and the number of the section. -/
structure Document where
  entries : Entries := []
  header : List String := []
  part : Nat := 0
  deriving Inhabited

/-- The document after a header of one or two brackets. -/
def Document.enter (d : Document) (list : Bool) (path : List String) : Except Fault Document := do
  let k := path.getLast?.getD ""
  let step := if list then addTable k else openTable (d.part + 1) k
  return ⟨← within step path.dropLast d.entries, path, d.part + 1⟩

/-- The document after a setting. -/
def Document.assign (d : Document) (path : List String) (v : Value) : Except Fault Document := do
  return { d with entries := ← within (addSetting d.part v path) d.header d.entries }

/-- The document after the statement at the start of a text, if there is one. -/
def Document.readStatement (d : Document) (s : List Char) : Except Fault (Left Document) := do
  match s with
  | '[' :: '[' :: r =>
    let (path, r) ← readKey (r.length + 1) (skip r)
    match r with
    | ']' :: ']' :: r => return (← d.enter true path, r)
    | _ => throw .header
  | '[' :: r =>
    let (path, r) ← readKey (r.length + 1) (skip r)
    match r with
    | ']' :: r => return (← d.enter false path, r)
    | _ => throw .header
  | c :: _ =>
    if isBare c || c = '"' || c = '\'' then
      let (path, r) ← readKey (s.length + 1) s
      match r with
      | '=' :: r =>
        let (v, r) ← readValue (2 * r.length + 2) (skip r)
        return (← d.assign path v, r)
      | _ => throw .equals
    else if c = '#' || c = '\n' then return (d, s)
    else throw .statement
  | [] => return (d, [])

/-- The document after the lines of a text, of which there are fewer than the fuel. -/
def Document.readLines (d : Document) : Nat → List Char → Except Fault Document
  | 0, _ => .ok d
  | fuel + 1, s => do
    let (d, r) ← d.readStatement (skip s)
    match ← skipComment (skip r) with
    | [] => return d
    | '\n' :: r => d.readLines fuel r
    | _ => throw .lineEnd

/-- A text with the carriage returns before line feeds taken out. -/
def joinBreaks : List Char → List Char
  | [] => []
  | '\r' :: '\n' :: r => '\n' :: joinBreaks r
  | c :: r => c :: joinBreaks r

/-- The fields that a text writes. -/
def read (text : String) : Except Fault Fields := do
  let s := joinBreaks text.toList
  return Item.toFields (← Document.readLines {} (s.length + 1) s).entries

end Bulletin.Toml
