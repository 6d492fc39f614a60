import Bulletin.Value.Basic
import Bulletin.Text.Entity

/-! # JSON

Reading a JSON text, with the place of the first fault, and writing a value. A reader takes the
rest of the text and gives back what it leaves; its `fuel` bounds the number of nested steps, of
which each character takes at most two. The words `NaN`, `Infinity` and `-Infinity` are numbers
here, a repeated key keeps its first place and its last value, and the reading stops at a whole number
of too many digits, whatever follows. Writing knows no such limit. -/

namespace Bulletin.Json

open Number (Binary64)

/-- What is wrong with a JSON text. All but the last say that it is none. -/
inductive Fault where
  | byteOrderMark
  | value
  | propertyName
  | colon
  | comma
  | unterminatedString
  | controlCharacter
  | escape
  | unicodeEscape
  | extraData
  | excess (digits : Nat)
  deriving DecidableEq, Repr

/-- The words for a fault. -/
def Fault.message : Fault → String
  | .byteOrderMark => "Unexpected UTF-8 BOM (decode using utf-8-sig)"
  | .value => "Expecting value"
  | .propertyName => "Expecting property name enclosed in double quotes"
  | .colon => "Expecting ':' delimiter"
  | .comma => "Expecting ',' delimiter"
  | .unterminatedString => "Unterminated string starting at"
  | .controlCharacter => "Invalid control character at"
  | .escape => "Invalid \\escape"
  | .unicodeEscape => "Invalid \\uXXXX escape"
  | .extraData => "Extra data"
  | .excess digits => Value.excessMessage digits

/-- Whether a text with a fault is no JSON; a whole number of too many digits is JSON. -/
def Fault.isMalformed : Fault → Bool
  | .excess _ => false
  | _ => true

/-- A fault, and the rest of the text where it stands. -/
structure Stop where
  fault : Fault
  rest : List Char

/-- What a reader gives: a value and the rest of the text, or the fault that stopped it. -/
abbrev Read (α : Type) := Except Stop (α × List Char)

/-- White space between the parts of a JSON text. -/
def isSpace (c : Char) : Bool := c = ' ' || c = '\t' || c = '\n' || c = '\r'

/-- The rest of a text after white space. -/
def skip (s : List Char) : List Char := s.dropWhile isSpace

/-! ### Reading -/

/-- The character that a one-letter escape stands for. -/
def escaped? : Char → Option Char
  | '"' => some '"'
  | '\\' => some '\\'
  | '/' => some '/'
  | 'b' => some '\x08'
  | 'f' => some '\x0C'
  | 'n' => some '\n'
  | 'r' => some '\r'
  | 't' => some '\t'
  | _ => none

/-- The number that four hexadecimal digits at the start of a text write; some character must
follow them. -/
def fourDigits? (s : List Char) : Option (Nat × List Char) :=
  match s with
  | a :: b :: c :: d :: e :: r =>
    match Text.hexValue? a, Text.hexValue? b, Text.hexValue? c, Text.hexValue? d with
    | some a, some b, some c, some d => some (((a * 16 + b) * 16 + c) * 16 + d, e :: r)
    | _, _, _, _ => none
  | _ => none

/-- The second half of a character beyond U+FFFF: an escape of a low surrogate, if one follows. -/
def lowSurrogate? (s : List Char) : Option (Nat × List Char) :=
  match s with
  | '\\' :: 'u' :: r =>
    match fourDigits? r with
    | some (n, r) => if 0xDC00 ≤ n && n ≤ 0xDFFF then some (n, r) else none
    | none => none
  | _ => none

/-- Whether a text goes on with a `\u` escape whose digits are wrong. -/
def brokenEscape? (s : List Char) : Option (List Char) :=
  match s with
  | '\\' :: 'u' :: r =>
    if r.length > 4 && (fourDigits? r).isNone then some ('u' :: r) else none
  | _ => none

/-- The characters of a string up to its closing quote; `start` is the text from its opening
quote. -/
def readChars (start : List Char) : Nat → List Char → Read (List Char)
  | 0, _ => .error ⟨.unterminatedString, start⟩
  | _ + 1, [] => .error ⟨.unterminatedString, start⟩
  | fuel + 1, c :: r =>
    if c = '"' then .ok ([], r)
    else if c = '\\' then
      match r with
      | [] => .error ⟨.unterminatedString, start⟩
      | 'u' :: h =>
        match fourDigits? h with
        | none => .error ⟨.unicodeEscape, r⟩
        | some (n, k) =>
          if 0xD800 ≤ n && n ≤ 0xDBFF then
            match lowSurrogate? k, brokenEscape? k with
            | some (m, k), _ =>
              (readChars start fuel k).map fun (cs, k) =>
                (Char.ofNat (0x10000 + (n - 0xD800) * 0x400 + (m - 0xDC00)) :: cs, k)
            | none, some at_ => .error ⟨.unicodeEscape, at_⟩
            | none, none => (readChars start fuel k).map fun (cs, k) => ('\uFFFD' :: cs, k)
          else
            (readChars start fuel k).map fun (cs, k) =>
              ((if 0xDC00 ≤ n && n ≤ 0xDFFF then '\uFFFD' else Char.ofNat n) :: cs, k)
      | e :: k =>
        match escaped? e with
        | some d => (readChars start fuel k).map fun (cs, k) => (d :: cs, k)
        | none => .error ⟨.escape, c :: r⟩
    else if c.toNat < 0x20 then .error ⟨.controlCharacter, c :: r⟩
    else (readChars start fuel r).map fun (cs, k) => (c :: cs, k)

/-- The string that starts at an opening quote. -/
def readString (s : List Char) : Read String :=
  match s with
  | '"' :: r => (readChars s (r.length + 1) r).map fun (cs, k) => (.ofList cs, k)
  | _ => .error ⟨.propertyName, s⟩

/-- The digits at the start of a text, and the rest. -/
def digits (s : List Char) : List Char × List Char := s.span Char.isDigit

/-- The digits of a number up to its point: no zero comes before others. -/
def wholeDigits? (s : List Char) : Option (List Char × List Char) :=
  match s with
  | '0' :: r => some (['0'], r)
  | _ => if (digits s).1.isEmpty then none else some (digits s)

/-- The fraction at the start of a text, without its point. -/
def fraction (s : List Char) : List Char × List Char :=
  match s with
  | '.' :: r => if (digits r).1.isEmpty then ([], s) else digits r
  | _ => ([], s)

/-- The exponent at the start of a text. -/
def exponent? (s : List Char) : Option (Int × List Char) :=
  match s with
  | e :: r =>
    if e = 'e' || e = 'E' then
      let (negative, r) :=
        match r with
        | '-' :: r => (true, r)
        | '+' :: r => (false, r)
        | r => (false, r)
      let (ds, r) := digits r
      if ds.isEmpty then none
      else
        let n : Int := Text.ofDigits 10 ds
        some (if negative then -n else n, r)
    else none
  | [] => none

/-- The number at the start of a text, after its sign; what is past its digits does not count if it is
a whole number of too many. -/
def number? (negative : Bool) (s : List Char) : Option (Read Value) :=
  (wholeDigits? s).map fun (ds, r) =>
    let (frac, r) := fraction r
    match exponent? r, frac with
    | none, [] =>
      if Value.digitLimit < ds.length then .error ⟨.excess ds.length, s⟩
      else
        let n : Int := Text.ofDigits 10 ds
        .ok (.int (if negative then -n else n), r)
    | power, _ =>
      let (e, r) := power.getD (0, r)
      .ok (.float (.ofDecimal negative (Text.ofDigits 10 (ds ++ frac)) (e - frac.length)), r)

/-- The words that are values. -/
def literals : List (List Char × Value) :=
  [("null".toList, .null), ("true".toList, .bool true), ("false".toList, .bool false),
    ("NaN".toList, .float .nan), ("Infinity".toList, .float (.infinite false)),
    ("-Infinity".toList, .float (.infinite true))]

/-- The literal or number at the start of a text. -/
def readScalar (s : List Char) : Read Value :=
  match literals.findSome? fun (w, v) => (Text.after? w s).map (v, ·) with
  | some r => .ok r
  | none =>
    match s with
    | '-' :: r => (number? true r).getD (.error ⟨.value, s⟩)
    | _ => (number? false s).getD (.error ⟨.value, s⟩)

mutual

/-- The value at the start of a text. -/
def readValue : Nat → List Char → Read Value
  | 0, s => .error ⟨.value, s⟩
  | fuel + 1, s =>
    match s with
    | '"' :: _ => (readString s).map fun (t, r) => (.str t, r)
    | '[' :: r =>
      match skip r with
      | ']' :: r => .ok (.list [], r)
      | r => (readItems fuel r).map fun (xs, r) => (.list xs, r)
    | '{' :: r =>
      match skip r with
      | '}' :: r => .ok (.dict [], r)
      | r => (readFields fuel r).map fun (fs, r) => (.dict (Fields.ofList fs), r)
    | _ => readScalar s

/-- The items of a list up to its closing bracket. -/
def readItems : Nat → List Char → Read (List Value)
  | 0, s => .error ⟨.value, s⟩
  | fuel + 1, s =>
    match readValue fuel s with
    | .error e => .error e
    | .ok (v, r) =>
      match skip r with
      | ']' :: r => .ok ([v], r)
      | ',' :: r => (readItems fuel (skip r)).map fun (vs, r) => (v :: vs, r)
      | r => .error ⟨.comma, r⟩

/-- The fields of an object up to its closing brace. -/
def readFields : Nat → List Char → Read Fields
  | 0, s => .error ⟨.propertyName, s⟩
  | fuel + 1, s =>
    match readString s with
    | .error e => .error e
    | .ok (k, r) =>
      match skip r with
      | ':' :: r =>
        match readValue fuel (skip r) with
        | .error e => .error e
        | .ok (v, r) =>
          match skip r with
          | '}' :: r => .ok ([(k, v)], r)
          | ',' :: r => (readFields fuel (skip r)).map fun (fs, r) => ((k, v) :: fs, r)
          | r => .error ⟨.comma, r⟩
      | r => .error ⟨.colon, r⟩

end

/-- The value that a whole text writes, or the first fault and the rest of the text there. -/
def readDocument (s : List Char) : Except Stop Value :=
  match s with
  | '\uFEFF' :: _ => .error ⟨.byteOrderMark, s⟩
  | _ =>
    match readValue (2 * s.length + 2) (skip s) with
    | .error e => .error e
    | .ok (v, r) =>
      match skip r with
      | [] => .ok v
      | r => .error ⟨.extraData, r⟩

/-- A fault with its place in a text: line and column count from one, characters from zero. -/
structure Error where
  fault : Fault
  line : Nat
  column : Nat
  offset : Nat
  deriving DecidableEq, Repr

/-- The place of a stop in a text. -/
def Stop.locate (stop : Stop) (text : List Char) : Error :=
  let offset := text.length - stop.rest.length
  let before := text.take offset
  ⟨stop.fault, before.count '\n' + 1, (before.reverse.takeWhile (· ≠ '\n')).length + 1, offset⟩

/-- The words for a fault and its place, which is not told of a number. -/
def Error.message (e : Error) : String :=
  if e.fault.isMalformed then
    s!"{e.fault.message}: line {e.line} column {e.column} (char {e.offset})"
  else e.fault.message

/-- The value that a text writes. -/
def read (text : String) : Except Error Value :=
  (readDocument text.toList).mapError (·.locate text.toList)

/-! ### Writing -/

/-- One character between the quotes of a string. -/
def writeChar (c : Char) : List Char :=
  if c = '"' then ['\\', '"']
  else if c = '\\' then ['\\', '\\']
  else if c = '\n' then ['\\', 'n']
  else if c = '\r' then ['\\', 'r']
  else if c = '\t' then ['\\', 't']
  else if c = '\x08' then ['\\', 'b']
  else if c = '\x0C' then ['\\', 'f']
  else if c.toNat < 0x20 then ['\\', 'u'] ++ Text.hexDigits 4 c.toNat
  else [c]

/-- A string between quotes. -/
def writeString (s : String) : String := .ofList ('"' :: s.toList.flatMap writeChar ++ ['"'])

/-- What stands between items at a depth: a comma, and a new line with its indentation or a
space. -/
def separator (indent : Option Nat) (depth : Nat) : String :=
  match indent with
  | none => ", "
  | some n => ",\n" ++ .ofList (List.replicate (n * depth) ' ')

/-- The break after an opening bracket or before a closing one. -/
def lineBreak (indent : Option Nat) (depth : Nat) : String :=
  match indent with
  | none => ""
  | some n => "\n" ++ .ofList (List.replicate (n * depth) ' ')

mutual

/-- A value as JSON text, inside `depth` brackets. -/
def writeAt (indent : Option Nat) (depth : Nat) : Value → String
  | .null => "null"
  | .bool b => if b then "true" else "false"
  | .int n => toString n
  | .float x => x.toText "Infinity" "NaN"
  | .str s => writeString s
  | .list [] => "[]"
  | .list (v :: vs) =>
    "[" ++ lineBreak indent (depth + 1) ++ writeItems indent (depth + 1) (v :: vs) ++
      lineBreak indent depth ++ "]"
  | .dict [] => "\x7b\x7d"
  | .dict (f :: fs) =>
    "\x7b" ++ lineBreak indent (depth + 1) ++ writeFields indent (depth + 1) (f :: fs) ++
      lineBreak indent depth ++ "\x7d"

/-- The items of a list. -/
def writeItems (indent : Option Nat) (depth : Nat) : List Value → String
  | [] => ""
  | [v] => writeAt indent depth v
  | v :: w :: r =>
    writeAt indent depth v ++ separator indent depth ++ writeItems indent depth (w :: r)

/-- The fields of an object. -/
def writeFields (indent : Option Nat) (depth : Nat) : List (String × Value) → String
  | [] => ""
  | [(k, v)] => writeString k ++ ": " ++ writeAt indent depth v
  | (k, v) :: w :: r =>
    writeString k ++ ": " ++ writeAt indent depth v ++ separator indent depth ++
      writeFields indent depth (w :: r)

end

/-- A value as JSON text, on one line or with each item on a line of its own. -/
def write (v : Value) (indent : Option Nat := none) : String := writeAt indent 0 v

end Bulletin.Json
