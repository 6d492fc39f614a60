import Bulletin.Markdown.Escape
import Bulletin.Text.Address
import Bulletin.Text.Blank

/-! # Targets of links

The target of a link is an address, between angle brackets or bare, and after white space a title
between quotes or parentheses. In a line of text a target stands between parentheses, so a bare
address may hold only balanced ones; in a definition it ends at white space. -/

namespace Bulletin.Markdown

/-- A space or a tab. -/
def isGap (c : Char) : Bool := c = ' ' || c = '\t'

/-- The rest of a text after spaces and tabs around at most one line feed. -/
def skipGap (s : List Char) : List Char :=
  match s.dropWhile isGap with
  | '\n' :: r => r.dropWhile isGap
  | r => r

/-- What stands before an unguarded character, and the rest after it; a character of `stops` ends
the search in vain. -/
def upTo? (stop : Char) (stops : Char → Bool) : List Char → Option (List Char × List Char)
  | [] => none
  | [c] => if c = stop then some ([], []) else none
  | c :: d :: r =>
    if c = stop then some ([], d :: r)
    else if stops c then none
    else if c = '\\' && isPunctuation d then
      (upTo? stop stops r).map fun (s, rest) => (c :: d :: s, rest)
    else (upTo? stop stops (d :: r)).map fun (s, rest) => (c :: s, rest)

/-- An address between angle brackets, after the opening one. -/
def bracketed? (s : List Char) : Option (List Char × List Char) :=
  upTo? '>' (fun c => c = '<' || c = '\n' || c = '\x00') s

/-- A bare address with balanced parentheses, of which `depth` are open; a punctuation character
after a backslash is guarded. -/
def bare? (guarded : Bool) (depth : Nat) : List Char → Option (List Char × List Char)
  | [] => if depth = 0 then some ([], []) else none
  | c :: r =>
    let keep := Option.map fun (p : List Char × List Char) => (c :: p.1, p.2)
    if guarded && isPunctuation c then keep (bare? false depth r)
    else if isGap c || c = '\n' then if depth = 0 then some ([], c :: r) else none
    else if c = '(' then keep (bare? false (depth + 1) r)
    else if c = ')' then
      if depth = 0 then some ([], c :: r) else keep (bare? false (depth - 1) r)
    else keep (bare? (c = '\\') depth r)

/-- The address of a target in a line of text, and the rest. -/
def address? (s : List Char) : Option (List Char × List Char) :=
  match skipGap s with
  | '<' :: r => bracketed? r
  | r => bare? false 0 r

/-- The address of a definition, which is not empty unless it is bracketed, and the rest. -/
def definitionAddress? (s : List Char) : Option (List Char × List Char) :=
  match skipGap s with
  | '<' :: r => bracketed? r
  | r =>
    let (address, rest) := r.span (!Text.isBlank ·)
    if address.isEmpty then none else some (address, rest)

/-- A title, after white space, and the rest. -/
def title? (s : List Char) : Option (List Char × List Char) :=
  let r := s.dropWhile fun c => isGap c || c = '\n'
  if r.length = s.length then none
  else
    match r with
    | '"' :: r => (upTo? '"' (· = '\x00') r).map fun (t, rest) => (unescape t, rest)
    | '\'' :: r => (upTo? '\'' (· = '\x00') r).map fun (t, rest) => (unescape t, rest)
    | '(' :: r =>
      (upTo? ')' (fun c => c = '(' || c = '\x00') r).map fun (t, rest) => (unescape t, rest)
    | _ => none

/-- The address and the title of a link, and the rest. -/
structure Target where
  address : String
  title : Option String
  deriving Repr

/-- A target with its escapes and references resolved; an empty title is none. -/
def Target.of (address : List Char) (title : Option (List Char)) : Target :=
  ⟨.ofList (Text.escapeAddress (unescape address)),
    (title.filter (!·.isEmpty)).map String.ofList⟩

/-- The target in a line of text, after its opening parenthesis, and the rest after the closing
one. -/
def inlineTarget? (s : List Char) : Option (Target × List Char) := do
  let (address, r) ← address? s
  let (title, r) := match title? r with
    | some (t, r) => (some t, r)
    | none => (none, r)
  match r.dropWhile Text.isBlank with
  | ')' :: rest => some (.of address title, rest)
  | _ => none

end Bulletin.Markdown
