import Bulletin.Path

/-! # Stores of files

A store holds files and directories under addresses, lists of names from the root of the tree. The
root is always a directory. The operations fail for the reasons for which a file system fails: what
is needed is missing or is something else, the system bars it, or a name is too long. A path leads to
an address from the directory in which one works, and a look at one may fail too.

An address is the only one of what stands at it: there are no links, symbolic or hard. What is barred
stays as it is while a program works. A path as a whole may be of any length, and its names have no
zero characters in them. -/

namespace Bulletin

/-- The names from the root of the tree to a file or directory. -/
abbrev Address := List String

/-- What stands at an address. -/
inductive Entry where
  | file (bytes : List UInt8)
  | directory
  deriving DecidableEq, Inhabited, Repr

/-- What one may want of an address: to pass a directory on the way to its entries, to read what
stands there, or to write what stands there or is to stand there. -/
inductive Access where
  | pass
  | read
  | write
  deriving DecidableEq, Repr

/-- Why an operation on files fails. -/
inductive FileFault where
  | missing
  | denied
  | exists
  | notDirectory
  | isDirectory
  | nameTooLong
  deriving DecidableEq, Repr

namespace FileFault

/-- The number of a fault. -/
def number : FileFault → Nat
  | missing => 2
  | denied => 13
  | «exists» => 17
  | notDirectory => 20
  | isDirectory => 21
  | nameTooLong => 36

/-- The words for a fault. -/
def words : FileFault → String
  | missing => "No such file or directory"
  | denied => "Permission denied"
  | «exists» => "File exists"
  | notDirectory => "Not a directory"
  | isDirectory => "Is a directory"
  | nameTooLong => "File name too long"

/-- The class name of a fault. -/
def className : FileFault → String
  | missing => "FileNotFoundError"
  | denied => "PermissionError"
  | «exists» => "FileExistsError"
  | notDirectory => "NotADirectoryError"
  | isDirectory => "IsADirectoryError"
  | nameTooLong => "OSError"

/-- The message of a fault at a path, which is shown between quotes. -/
def message (f : FileFault) (quotedPath : String) : String :=
  s!"[Errno {f.number}] {f.words}: {quotedPath}"

/-- Whether a fault on the way to a path only says that there is nothing at the path. -/
def isAbsence : FileFault → Bool
  | missing => true
  | notDirectory => true
  | _ => false

end FileFault

/-- Files and directories under their addresses, and what is barred at an address. -/
structure Store where
  entries : List (Address × Entry) := []
  bars : Access → Address → Bool := fun _ _ => false
  deriving Inhabited

namespace Store

/-- The number of bytes that a name may have. -/
def nameLimit : Nat := 255

/-- What stands at an address. -/
def get? (s : Store) (a : Address) : Option Entry :=
  if a.isEmpty then some .directory else List.lookup a s.entries

/-- The entries with one set. -/
def setEntry (a : Address) (e : Entry) : List (Address × Entry) → List (Address × Entry)
  | [] => [(a, e)]
  | (b, old) :: r => if b = a then (b, e) :: r else (b, old) :: setEntry a e r

/-- A store with an entry set. -/
def set (s : Store) (a : Address) (e : Entry) : Store := { s with entries := setEntry a e s.entries }

/-- Whether there is a directory at an address. -/
def isDirectory (s : Store) (a : Address) : Bool := s.get? a == some .directory

/-- The names in a directory. -/
def childNames (s : Store) (a : Address) : List String :=
  s.entries.filterMap fun (b, _) =>
    match b.getLast? with
    | some name => if b.dropLast = a then some name else none
    | none => none

/-! ### From paths to addresses -/

/-- The address next to another one by a name: two dots lead one step up. -/
def next (a : Address) (name : String) : Address := if name = ".." then a.dropLast else a ++ [name]

/-- What hinders a step from an address to a name, if anything does: a step is taken from a directory
that may be passed, to a name that is not too long. -/
def hindrance? (s : Store) (a : Address) (name : String) : Option FileFault :=
  match s.get? a with
  | none => some .missing
  | some (.file _) => some .notDirectory
  | some .directory =>
    if s.bars .pass a then some .denied
    else if nameLimit < name.utf8ByteSize then some .nameTooLong
    else none

/-- The address to which names lead from an address. The last name need not exist. -/
def walk (s : Store) (a : Address) : List String → Except FileFault Address
  | [] => .ok a
  | name :: rest =>
    match s.hindrance? a name with
    | some fault => .error fault
    | none => walk s (next a name) rest

/-- The address of a path, seen from a directory. -/
def locate (s : Store) (here : Address) (p : Path) : Except FileFault Address :=
  s.walk (if p.isAbsolute then [] else here) p.names

/-- What stands at a path, if anything does; that it cannot be told is a fault. -/
def look? (s : Store) (here : Address) (p : Path) : Except FileFault (Option Entry) :=
  match s.locate here p with
  | .ok a => .ok (s.get? a)
  | .error fault => if fault.isAbsence then .ok none else .error fault

/-- The address that names stand for when two dots are taken off with the name before them,
whatever there is. -/
def normal (a : Address) (names : List String) : Address := names.foldl next a

/-- The address that a path stands for, seen from a directory, whatever there is. -/
def addressOf (here : Address) (p : Path) : Address :=
  normal (if p.isAbsolute then [] else here) p.names

/-! ### Operations -/

/-- The bytes of a file. -/
def read (s : Store) (here : Address) (p : Path) : Except FileFault (List UInt8) := do
  let a ← s.locate here p
  match s.get? a with
  | none => throw .missing
  | some entry =>
    if s.bars .read a then throw .denied
    else
      match entry with
      | .directory => throw .isDirectory
      | .file bytes => return bytes

/-- The names in the directory at a path. -/
def namesAt (s : Store) (here : Address) (p : Path) : Except FileFault (List String) := do
  let a ← s.locate here p
  match s.get? a with
  | none => throw .missing
  | some (.file _) => throw .notDirectory
  | some .directory => if s.bars .read a then throw .denied else return s.childNames a

/-- The address of a file that may be written: one that is there, or a new one in a directory. -/
def target (s : Store) (here : Address) (p : Path) : Except FileFault Address := do
  let a ← s.locate here p
  let permitted := if s.bars .write a then throw .denied else return a
  match s.get? a with
  | some .directory => throw .isDirectory
  | some (.file _) => permitted
  | none =>
    match s.get? a.dropLast with
    | none => throw .missing
    | some (.file _) => throw .notDirectory
    | some .directory => permitted

/-- A store with a file written, in a directory that exists. -/
def write (s : Store) (here : Address) (p : Path) (bytes : List UInt8) :
    Except FileFault Store := do
  return s.set (← s.target here p) (.file bytes)

/-- A store with bytes added at the end of a file, which need not exist. -/
def append (s : Store) (here : Address) (p : Path) (bytes : List UInt8) :
    Except FileFault Store := do
  let a ← s.target here p
  match s.get? a with
  | some (.file old) => return s.set a (.file (old ++ bytes))
  | _ => return s.set a (.file bytes)

/-- The store in which a step to a name is taken: a directory is made there if there is nothing. What
is above a directory is never made. -/
def makeNext (s : Store) (a : Address) (name : String) : Except FileFault Store :=
  match s.hindrance? a name with
  | some fault => .error fault
  | none =>
    if (s.get? (next a name)).isSome then .ok s
    else if name = ".." then .error .missing
    else if s.bars .write (next a name) then .error .denied
    else .ok (s.set (next a name) .directory)

/-- The making of a directory below an address, and of those above it where they are missing; the
names still to go are given. What has been made stays when a fault ends it. -/
def makeBelow (s : Store) (a : Address) : List String → Store × Option FileFault
  | [] => (s, if s.isDirectory a then none else some .exists)
  | name :: rest =>
    match s.makeNext a name with
    | .error fault => (s, some fault)
    | .ok t => makeBelow t (next a name) rest

/-- The making of a directory at a path, and of those above it where they are missing. -/
def make (s : Store) (here : Address) (p : Path) : Store × Option FileFault :=
  s.makeBelow (if p.isAbsolute then [] else here) p.names

/-- A store with a directory made at a path, and those above it where they are missing. -/
def makeDirectory (s : Store) (here : Address) (p : Path) : Except FileFault Store :=
  match s.make here p with
  | (store, none) => .ok store
  | (_, some fault) => .error fault

end Store

end Bulletin
