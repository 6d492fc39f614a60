import Bulletin.Markdown.Emphasis
import Bulletin.Markdown.Escape
import Bulletin.Markdown.Html
import Bulletin.Markdown.Label
import Bulletin.Text.Address
import Bulletin.Text.Letters

/-! # The pieces of a line of text

The lexemes that may start at a place in a line of text, each with its own reader, and the order in
which the readers are tried. A reader gives nothing where its lexeme does not start; then the
character there is plain text. -/

namespace Bulletin.Markdown

/-- What a line of text is read with: the extensions in force, the link definitions and the keys
of the footnotes, and whether the line is the text of a link. -/
structure Scene where
  math : Bool := false
  strikethrough : Bool := false
  footnotes : Bool := false
  autolinks : Bool := false
  definitions : List LinkDefinition := []
  noteKeys : List String := []
  inLink : Bool := false
  deriving Inhabited

/-- A piece of a line of text as it is first seen. Plain text joins the plain text around it; a
token stands for itself; the text of a struck passage is still to be read, and a bare address may
have to end before a bracket. -/
inductive Lexeme where
  | plain (s : List Char)
  | token (t : Inline)
  | struck (s : List Char)
  | address (url : List Char)
  | run (r : Run)
  | opening (image : Bool)
  | closing
  | anchor (t : Inline) (opens : Bool)
  deriving Repr

/-- A reader of a lexeme: from the character before it and the text on, the lexeme and the rest. -/
abbrev Reader := Scene → Option Char → List Char → Option (Lexeme × List Char)

/-- A text as a token. -/
def textToken (s : List Char) : Inline := .text (.str (.ofList s))

namespace Lexeme

/-- A run of escapes, which is a text of its own. -/
def escapes : Reader := fun _ _ s =>
  match spanEscapes s with
  | ([], _) => none
  | (guarded, rest) => some (.token (textToken guarded), rest)

/-! ### Mathematics -/

/-- What stands before an unguarded dollar sign, and the rest after it; line feeds only if
`lines`. -/
def toDollar (lines : Bool) : List Char → Option (List Char × List Char)
  | [] => none
  | ['$'] => some ([], [])
  | [_] => none
  | c :: d :: r =>
    if c = '$' then some ([], d :: r)
    else if c = '\n' && !lines then none
    else if c = '\\' then
      if d = '\n' then none else (toDollar lines r).map fun (s, rest) => (c :: d :: s, rest)
    else (toDollar lines (d :: r)).map fun (s, rest) => (c :: s, rest)

/-- A displayed formula between double dollar signs, which a line of text does not take up. -/
def displayed? (s : List Char) : Option (Lexeme × List Char) := do
  let r ← Text.after? ['$', '$'] s
  match ← toDollar true r with
  | (raw, '$' :: rest) => some (.token (.unknown (.str "block_math") (.str (.ofList raw)) []), rest)
  | _ => none

/-- What stands before the first occurrence of a text, and the rest after it. -/
def before? (stop : List Char) : List Char → Option (List Char × List Char)
  | [] => none
  | c :: r =>
    match Text.after? stop (c :: r) with
    | some rest => some ([], rest)
    | none => (before? stop r).map fun (s, rest) => (c :: s, rest)

/-- A formula between dollar signs with at most `n` and at least one backtick inside each. -/
def ticked? (s : List Char) : Nat → Option (List Char × List Char)
  | 0 => none
  | n + 1 =>
    match before? (List.replicate (n + 1) '`' ++ ['$']) (s.drop (n + 1)) with
    | some r => some r
    | none => ticked? s n

/-- A formula between single dollar signs: no white space after the first, no digit after the
last. -/
def dollars? (s : List Char) : Option (List Char × List Char) := do
  let c ← s.head?
  if c = '$' || Text.isBlank c then none
  else
    let (raw, rest) ← toDollar false s
    if rest.head?.any fun d => (Text.decimalDigit? d).isSome then none else some (raw, rest)

/-- A formula in a line of text. -/
def formula? (s : List Char) : Option (Lexeme × List Char) := do
  let r ← Text.after? ['$'] s
  let (raw, rest) ← (ticked? r (r.takeWhile (· = '`')).length).or (dollars? r)
  some (.token (.math (.str (.ofList raw))), rest)

/-- A formula. -/
def mathematics : Reader := fun scene _ s =>
  if scene.math then (displayed? s).or (formula? s) else none

/-! ### Code -/

/-- What stands before the next run of exactly `n` backticks, and the rest after it. The text is
cut at runs of backticks; `fuel` bounds the number of steps. -/
def toTicks (n : Nat) : (fuel : Nat) → List Char → Option (List Char × List Char)
  | 0, _ => none
  | fuel + 1, s =>
    let (code, r) := s.span (· != '`')
    let (ticks, rest) := r.span (· = '`')
    if ticks.isEmpty then none
    else if ticks.length = n then some (code, rest)
    else (toTicks n fuel rest).map fun (more, rest) => (code ++ ticks ++ more, rest)

/-- A run of spaces and line feeds inside a code span: one space if there is a line feed in it. -/
def closeGap (gap : List Char) : List Char := if gap.contains '\n' then [' '] else gap

/-- A text, after a run of spaces and line feeds, in which every such run with a line feed is one
space. -/
def joinLines (gap : List Char) : List Char → List Char
  | [] => closeGap gap
  | c :: r =>
    if c = ' ' || c = '\n' then joinLines (gap ++ [c]) r else closeGap gap ++ c :: joinLines [] r

/-- A text without one space at either end, unless it is blank. -/
def trimCode (s : List Char) : List Char :=
  if s.all Text.isBlank then s
  else
    match s with
    | ' ' :: r => if s.getLast? = some ' ' then r.dropLast else s
    | _ => s

/-- A code span, or a run of backticks that starts none. -/
def code : Reader := fun _ _ s =>
  let (ticks, r) := s.span (· = '`')
  if ticks.isEmpty then none
  else
    match toTicks ticks.length (r.length + 1) r with
    | some (raw, rest) => some (.token (.code (.str (.ofList (trimCode (joinLines [] raw))))), rest)
    | none => some (.plain ticks, r)

/-! ### Emphasis and struck text -/

/-- A run of emphasis marks. -/
def emphasis : Reader := fun _ before s =>
  match s with
  | [] => none
  | c :: r =>
    if c = '*' || c = '_' then
      let (more, rest) := r.span (· = c)
      some (.run (.of c (more.length + 1) before rest.head?), rest)
    else none

/-- The text up to the tildes that close a struck passage, and the rest. They follow a character
that is neither white space nor a tilde, or a tilde that is guarded, and no tilde follows them;
`slashes` is the number of backslashes right before, or right before the tilde right before. -/
def toTildes (slashes : Nat) (before : Option Char) : List Char → Option (List Char × List Char)
  | [] => none
  | c :: r =>
    let closes := before.any fun b => if b = '~' then slashes % 2 = 1 else !Text.isBlank b
    let slashes :=
      if c = '\\' then slashes + 1 else if c = '~' && before = some '\\' then slashes else 0
    match Text.after? ['~', '~'] (c :: r) with
    | some rest =>
      if closes && rest.head? != some '~' then some ([], rest)
      else (toTildes slashes (some c) r).map fun (s, rest) => (c :: s, rest)
    | none => (toTildes slashes (some c) r).map fun (s, rest) => (c :: s, rest)

/-- A struck passage. -/
def struckPassage : Reader := fun scene _ s =>
  if scene.strikethrough then do
    let r ← Text.after? ['~', '~'] s
    if r.head?.all fun c => c = '~' || Text.isBlank c then none
    else
      let (passage, rest) ← toTildes 0 none r
      some (.struck passage, rest)
  else none

/-! ### References and links -/

/-- A reference to a footnote; one that is not defined is plain text. -/
def noteReference : Reader := fun scene _ s =>
  if scene.footnotes then do
    let r ← Text.after? ['[', '^'] s
    let (label, rest) ← noteLabel? r
    let key := labelKey label
    if scene.noteKeys.contains key then some (.token (.noteReference key ""), rest)
    else some (.plain ('[' :: '^' :: label ++ [']']), rest)
  else none

/-- A bracket that opens or closes the text of a link or an image. -/
def bracket : Reader := fun scene _ s =>
  match s with
  | '!' :: '[' :: r => some (.opening true, r)
  | '[' :: r => if scene.inLink then some (.plain ['['], r) else some (.opening false, r)
  | ']' :: r => some (.closing, r)
  | _ => none

/-- A link to an address that is its own text; inside a link it is a text of its own. -/
def selfLink (scene : Scene) (source address text : List Char) : Inline :=
  if scene.inLink then textToken source
  else .link (.str (.ofList (Text.escapeAddress address))) .null [textToken text]

/-- An address or a mail address between angle brackets. -/
def angleLink : Reader := fun scene _ s =>
  match Html.autoLink? s with
  | some (a, rest) => some (.token (selfLink scene ('<' :: a ++ ['>']) a a), rest)
  | none =>
    (Html.autoMail? s).map fun (a, rest) =>
      (.token (selfLink scene ('<' :: a ++ ['>']) ("mailto:".toList ++ a) a), rest)

/-- A piece of markup; the tags of links open and close the text of a link. -/
def markup : Reader := fun _ _ s =>
  (Html.markup? s).map fun rest =>
    let raw := s.take (s.length - rest.length)
    let token := Inline.html (.str (.ofList raw))
    let starts := fun t : String => Text.startsWith raw t.toList
    if starts "<a " || starts "<a>" || starts "<A " || starts "<A>" then (.anchor token true, rest)
    else if starts "</a " || starts "</a>" || starts "</A " || starts "</A>" then
      (.anchor token false, rest)
    else (.token token, rest)

/-! ### Line breaks -/

/-- The end of a line inside a paragraph: a backslash or two spaces before it make it hard. -/
def lineEnd : Reader := fun _ _ s =>
  match s with
  | '\\' :: '\n' :: r => some (.token .lineBreak, r.dropWhile Text.isBlank)
  | _ =>
    let (spaces, r) := s.span (· = ' ')
    match r with
    | '\n' :: r =>
      some (.token (if spaces.length ≥ 2 then .lineBreak else .softBreak), r.dropWhile Text.isBlank)
    | _ => none

/-! ### Bare addresses -/

/-- A character inside a bare address. -/
def isAddressChar (c : Char) : Bool := !Text.isBlank c && c != '<'

/-- A character that may end a bare address. -/
def endsAddress (c : Char) : Bool := isAddressChar c && !".,:;\"')]".toList.contains c

/-- The bare address of the web at the start of a text, and the rest; its last characters are given
up until it ends well. -/
def bareAddress? (s : List Char) : Option (List Char × List Char) := do
  let head ← ["https://".toList, "http://".toList].find? (Text.startsWith s ·)
  let body := (s.drop head.length).takeWhile isAddressChar
  let address := Text.trimEnd (!endsAddress ·) body
  if address.length < 2 then none
  else
    let url := head ++ address
    some (url, s.drop url.length)

/-- A bare address. -/
def bareLink : Reader := fun scene _ s =>
  if scene.autolinks then (bareAddress? s).map fun (url, rest) => (.address url, rest) else none

/-- The readers in the order in which they are tried. -/
def readers : List Reader :=
  [escapes, mathematics, code, emphasis, struckPassage, noteReference, bracket, angleLink, markup,
    lineEnd, bareLink]

/-- The lexeme at the start of a text and the rest; a character that starts none is plain. -/
def read (scene : Scene) (before : Option Char) (s : List Char) : Option (Lexeme × List Char) :=
  match readers.findSome? fun r => r scene before s with
  | some found => some found
  | none =>
    match s with
    | [] => none
    | c :: r => some (.plain [c], r)

end Lexeme

end Bulletin.Markdown
