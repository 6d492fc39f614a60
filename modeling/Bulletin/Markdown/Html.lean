import Bulletin.Text.Blank

/-! # Markup inside Markdown

Tags, comments, instructions and declarations of HTML stand in a text as they are. Here is where
one of them ends, for a text that may start with one. -/

namespace Bulletin.Markdown.Html

/-- A letter of ASCII. -/
def isLetter (c : Char) : Bool := c.isAlpha

/-- The rest of a text after the first occurrence of another. -/
def past? (stop : List Char) : List Char → Option (List Char)
  | [] => if stop.isEmpty then some [] else none
  | c :: r =>
    match Text.after? stop (c :: r) with
    | some rest => some rest
    | none => past? stop r

/-- The rest of a text after the name of a tag, and the name. -/
def tagName? : List Char → Option (List Char × List Char)
  | c :: r =>
    if isLetter c then
      let (name, rest) := r.span fun c => c.isAlphanum || c = '-'
      some (c :: name, rest)
    else none
  | [] => none

/-- The rest of a text after the name of an attribute. -/
def attributeName? : List Char → Option (List Char)
  | c :: r =>
    if isLetter c || c = '_' || c = ':' then
      some (r.dropWhile fun c => c.isAlphanum || c = '_' || c = '.' || c = ':' || c = '-')
    else none
  | [] => none

/-- A character of a value without quotes. -/
def isBareValue (c : Char) : Bool :=
  !(Text.isBlank c || c = '"' || c = '\'' || c = '=' || c = '<' || c = '>' || c = '`')

/-- The rest of a text after the value of an attribute. -/
def value? : List Char → Option (List Char)
  | '"' :: r => past? ['"'] r
  | '\'' :: r => past? ['\''] r
  | s =>
    let rest := s.dropWhile isBareValue
    if rest.length = s.length then none else some rest

/-- The rest of a text after the value that an attribute may be given; none if there is an equals
sign without one. -/
def assignment? (s : List Char) : Option (List Char) :=
  match s.dropWhile Text.isBlank with
  | '=' :: r => value? (r.dropWhile Text.isBlank)
  | _ => some s

/-- The rest of a text after the attributes of a tag; `fuel` bounds their number. -/
def attributes : (fuel : Nat) → List Char → List Char
  | 0, s => s
  | fuel + 1, s =>
    let r := s.dropWhile Text.isBlank
    if r.length = s.length then s
    else
      match (attributeName? r).bind assignment? with
      | some rest => attributes fuel rest
      | none => s

/-- The rest of a text after an opening tag, from its name on. -/
def openTag? (s : List Char) : Option (List Char) := do
  let (_, r) ← tagName? s
  match (attributes r.length r).dropWhile Text.isBlank with
  | '/' :: '>' :: rest => some rest
  | '>' :: rest => some rest
  | _ => none

/-- The rest of a text after a closing tag, from its name on. -/
def closeTag? (s : List Char) : Option (List Char) := do
  let (_, r) ← tagName? s
  match r.dropWhile Text.isBlank with
  | '>' :: rest => some rest
  | _ => none

/-- The rest of a text after the markup that it starts with. -/
def markup? : List Char → Option (List Char)
  | '<' :: '/' :: r => closeTag? r
  | '<' :: '!' :: '-' :: '-' :: '>' :: r => some r
  | '<' :: '!' :: '-' :: '-' :: '-' :: '>' :: r => some r
  | '<' :: '!' :: '-' :: '-' :: r => past? ['-', '-', '>'] r
  | '<' :: '?' :: r => past? ['?', '>'] r
  | '<' :: '!' :: '[' :: 'C' :: 'D' :: 'A' :: 'T' :: 'A' :: '[' :: r => past? [']', ']', '>'] r
  | '<' :: '!' :: c :: r => if isLetter c then past? ['>'] r else none
  | '<' :: r => openTag? r
  | _ => none

/-! ### Automatic links -/

/-- The rest of a text after an address between angle brackets with a scheme, and the address. -/
def autoLink? : List Char → Option (List Char × List Char)
  | '<' :: c :: r =>
    let (scheme, rest) := r.span fun c => c.isAlphanum || c = '.' || c = '+' || c = '-'
    if isLetter c && 1 ≤ scheme.length && scheme.length ≤ 31 then
      match rest with
      | ':' :: rest =>
        match rest.span fun c => c.toNat > 0x20 && c != '<' && c != '>' with
        | (path, '>' :: rest) => some (c :: scheme ++ ':' :: path, rest)
        | _ => none
      | _ => none
    else none
  | _ => none

/-- A character before the at sign of a mail address. -/
def isMailName (c : Char) : Bool := c.isAlphanum || ".!#$%&'*+/=?^_`\x7b|\x7d~-".toList.contains c

/-- Whether a text is a label of a domain: at most 63 letters, digits and inner hyphens. -/
def isDomainLabel (s : List Char) : Bool :=
  s.all (fun c => c.isAlphanum || c = '-') && s.head?.any (·.isAlphanum) &&
    s.getLast?.any (·.isAlphanum) && s.length ≤ 63

/-- The rest of a text after a mail address between angle brackets, and the address. -/
def autoMail? : List Char → Option (List Char × List Char)
  | '<' :: r =>
    match r.span isMailName with
    | (c :: name, '@' :: rest) =>
      match rest.span fun c => c.isAlphanum || c = '-' || c = '.' with
      | (domain, '>' :: rest) =>
        if (Text.splitAtChar '.' domain).all isDomainLabel then
          some (c :: name ++ '@' :: domain, rest)
        else none
      | _ => none
    | _ => none
  | _ => none

end Bulletin.Markdown.Html
