import Bulletin.Command.Switch

/-! # Arguments of the command

The words of a command line become the settings of its switches. First every word is looked at by
itself: it names a switch, by a spelling or by the start of one, or it is plain. Then the switches
are carried out from left to right, each with its value. Help and version end the reading, and so
does the first fault; plain words that no switch takes as a value are a fault at the end. -/

namespace Bulletin.Command

/-- What is wrong with a command line. -/
inductive Fault where
  | ambiguous (word : String) (spellings : List String)
  | valueMissing (s : Switch)
  | valueUnused (s : Switch) (value : String)
  | badValue (s : Switch) (why : String)
  | badChoice (s : Switch) (value : String) (choices : List String)
  | unknown (words : List String)
  deriving DecidableEq, Repr

/-- The words for a fault. -/
def Fault.message : Fault → String
  | ambiguous word spellings =>
    s!"ambiguous option: {word} could match " ++ ", ".intercalate spellings
  | valueMissing s => s!"argument {s.name}: expected one argument"
  | valueUnused s v => s!"argument {s.name}: ignored explicit argument {Text.quoted v}"
  | badValue s why => s!"argument {s.name}: {why}"
  | badChoice s v choices =>
    let known := ", ".intercalate (choices.map Text.quoted)
    s!"argument {s.name}: invalid choice: {Text.quoted v} (choose from {known})"
  | unknown words => "unrecognized arguments: " ++ " ".intercalate words

/-- Why the reading of a command line ends before its end. -/
inductive Stop where
  | help
  | version
  | fault (f : Fault)
  deriving DecidableEq, Repr

/-! ### Words -/

/-- A word of a command line: a plain one, the separator after which all words are plain, an
unknown switch, or a switch with the value that the word itself gives; `short` tells a switch of
one letter. -/
inductive Word where
  | plain (text : String)
  | separator
  | stranger (text : String)
  | switch (s : Switch) (short : Bool) (value : Option String)
  deriving DecidableEq, Repr

/-- The two parts of a text around its first equals sign, if there is one. -/
def splitAtEquals? (s : List Char) : Option (List Char × List Char) :=
  match s.span (· ≠ '=') with
  | (a, _ :: b) => some (a, b)
  | (_, []) => none

/-- Whether a spelling is one of a single letter. -/
def isShort (spelling : List Char) : Bool := !Text.startsWith spelling ['-', '-']

/-- The switches that a word may mean, with their spellings: a long one by the start of its
spelling, a short one by its letter, whose value is what follows. -/
def candidates (word : List Char) : List (String × Word) :=
  if isShort word then
    Switch.table.filterMap fun (spelling, s) =>
      if spelling.toList = word.take 2 then
        some (spelling, .switch s true (some (.ofList (word.drop 2))))
      else if Text.startsWith spelling.toList word then
        some (spelling, .switch s (isShort spelling.toList) none)
      else none
  else
    let (start, value) :=
      match splitAtEquals? word with
      | some (a, b) => (a, some (String.ofList b))
      | none => (word, none)
    Switch.table.filterMap fun (spelling, s) =>
      if Text.startsWith spelling.toList start then some (spelling, .switch s false value) else none

/-- Digits of any script up to the end. -/
def allDigits (s : List Char) : Bool := s.all fun c => (Text.decimalDigit? c).isSome

/-- Whether a word is a negative number, which is plain. -/
def isNegativeNumber (word : List Char) : Bool :=
  match word with
  | '-' :: r =>
    let (whole, after) := (if r.getLast? = some '\n' then r.dropLast else r).span (· ≠ '.')
    allDigits whole &&
      match after with
      | [] => !whole.isEmpty
      | _ :: d => !d.isEmpty && allDigits d
  | _ => false

/-- The switch that a word names in full, before an equals sign if it has one. -/
def named? (word : List Char) : Option Word :=
  match Switch.ofSpelling? (.ofList word) with
  | some s => some (.switch s (isShort word) none)
  | none =>
    (splitAtEquals? word).bind fun (a, b) =>
      (Switch.ofSpelling? (.ofList a)).map fun s => .switch s (isShort a) (some (.ofList b))

/-- What a word is by itself. -/
def Word.of (text : String) : Except Fault Word :=
  let cs := text.toList
  if cs.head? ≠ some '-' || cs.length = 1 then .ok (.plain text)
  else
    match named? cs, candidates cs with
    | some w, _ => .ok w
    | none, [(_, w)] => .ok w
    | none, [] =>
      .ok (if isNegativeNumber cs || cs.contains ' ' then .plain text else .stranger text)
    | none, many => .error (.ambiguous text (many.map (·.1)))

/-- What the words of a command line are. -/
def Word.ofList : List String → Except Fault (List Word)
  | [] => .ok []
  | text :: rest =>
    if text = "--" then .ok (.separator :: rest.map .plain)
    else do return (← Word.of text) :: (← Word.ofList rest)

/-! ### Settings of the switches -/

/-- The settings of the switches. -/
structure Arguments where
  input : Option String := none
  output : Option String := none
  inputFormat : String := "auto"
  headingSize : Option Int := none
  monospaceFont : Option String := none
  frontMatter : Bool := false
  config : Option String := none
  noConfig : Bool := false
  parallel : Int := 1
  skipErrors : Bool := false
  dumpTree : Bool := false
  verbose : Bool := false
  logLevel : String := "WARNING"
  logFile : Option String := none
  trace : Bool := false
  about : Bool := false
  deriving DecidableEq, Inhabited, Repr

namespace Arguments

/-- A value that a switch admits. -/
def chosen (s : Switch) (value : String) : Except Stop String :=
  match s.choices? with
  | none => .ok value
  | some choices =>
    if choices.contains value then .ok value else .error (.fault (.badChoice s value choices))

/-- A number that is the value of a switch. -/
def number (s : Switch) (read : String → Except String Int) (value : String) : Except Stop Int :=
  (read value).mapError fun why => .fault (.badValue s why)

/-- The settings after a switch with its value, which is empty for a switch without one. -/
def take (a : Arguments) (s : Switch) (value : String) : Except Stop Arguments :=
  match s with
  | .help => .error .help
  | .version => .error .version
  | .input => .ok { a with input := some value }
  | .output => .ok { a with output := some value }
  | .inputFormat => do return { a with inputFormat := ← chosen s value }
  | .headingSize => do return { a with headingSize := some (← number s Command.headingSize value) }
  | .monospaceFont => .ok { a with monospaceFont := some value }
  | .frontMatter => .ok { a with frontMatter := true }
  | .config => .ok { a with config := some value }
  | .noConfig => .ok { a with noConfig := true }
  | .parallel => do return { a with parallel := ← number s positiveNumber value }
  | .skipErrors => .ok { a with skipErrors := true }
  | .dumpTree => .ok { a with dumpTree := true }
  | .verbose => .ok { a with verbose := true }
  | .logLevel => do return { a with logLevel := ← chosen s value }
  | .logFile => .ok { a with logFile := some value }
  | .trace => .ok { a with trace := true }
  | .about => .ok { a with about := true }

/-- The settings after several switches. -/
def takeAll (a : Arguments) (switches : List (Switch × String)) : Except Stop Arguments :=
  switches.foldlM (fun a (s, v) => a.take s v) a

end Arguments

/-- The switches that a word of letters turns on, with their values; the last one is left without
a value if it needs one and the word has no more letters. -/
def cluster (s : Switch) : List Char → Except Fault (List (Switch × Option String))
  | [] => .ok [(s, none)]
  | c :: r =>
    if s.takesValue then .ok [(s, some (.ofList (c :: r)))]
    else
      match Switch.ofSpelling? (.ofList ['-', c]) with
      | none => .error (.valueUnused s (.ofList (c :: r)))
      | some t => do return (s, none) :: (← cluster t r)

/-- The switches that a switch word turns on. -/
def switchesOf (s : Switch) (short : Bool) :
    Option String → Except Fault (List (Switch × Option String))
  | none => .ok [(s, none)]
  | some v =>
    if s.takesValue then .ok [(s, some v)]
    else if short && v ≠ "" then cluster s v.toList
    else .error (.valueUnused s v)

/-- The switch at the end of a row that still needs a value, if there is one. -/
def waiting? (switches : List (Switch × Option String)) : Option Switch :=
  match switches.getLast? with
  | some (s, none) => if s.takesValue then some s else none
  | _ => none

/-- A row of switches, those without a value carrying an empty one. -/
def settled (switches : List (Switch × Option String)) : List (Switch × String) :=
  switches.map fun (s, v) => (s, v.getD "")

/-- The settings after words, and the words that nothing takes. -/
def Arguments.read (a : Arguments) : List Word → Except Stop (Arguments × List String)
  | [] => .ok (a, [])
  | .plain t :: rest => do let (a, left) ← a.read rest; return (a, t :: left)
  | .separator :: rest => do let (a, left) ← a.read rest; return (a, "--" :: left)
  | .stranger t :: rest => do let (a, left) ← a.read rest; return (a, t :: left)
  | .switch s short v :: rest => do
    let switches ← (switchesOf s short v).mapError .fault
    match waiting? switches with
    | none => (← a.takeAll (settled switches)).read rest
    | some s =>
      match rest with
      | .plain t :: rest => (← a.takeAll (settled switches.dropLast ++ [(s, t)])).read rest
      | _ => throw (.fault (.valueMissing s))

/-- The settings that a command line gives. -/
def Arguments.ofList (words : List String) : Except Stop Arguments := do
  let (a, left) ← Arguments.read {} (← (Word.ofList words).mapError .fault)
  if left.isEmpty then return a else throw (.fault (.unknown left))

end Bulletin.Command
