import Bulletin.Text.Blank

/-! # Paths

A path is a root, if it is absolute, and the names on the way from there. Names that are empty or a
single dot are dropped when a path is read; two dots stay, since what they mean depends on the files
that there are. -/

namespace Bulletin

/-- A path in a tree of files. -/
structure Path where
  root : String := ""
  names : List String := []
  deriving DecidableEq, Inhabited, Repr

namespace Path

/-- The root that a text starts with; exactly two slashes are a root of their own. -/
def rootOf (s : List Char) : String :=
  match (s.takeWhile (· = '/')).length with
  | 0 => ""
  | 2 => "//"
  | _ => "/"

/-- The path that a text writes. -/
def ofString (s : String) : Path :=
  let cs := s.toList
  ⟨rootOf cs, ((Text.splitAtChar '/' cs).map String.ofList).filter fun n => n ≠ "" && n ≠ "."⟩

/-- The written form of a path; the path without names is a dot. -/
def toString (p : Path) : String :=
  let names := "/".intercalate p.names
  if p.root.isEmpty && p.names.isEmpty then "." else p.root ++ names

instance : ToString Path := ⟨toString⟩

/-- Whether a path is absolute. -/
def isAbsolute (p : Path) : Bool := !p.root.isEmpty

/-- A path below another; an absolute path stays what it is. -/
def join (p q : Path) : Path := if q.isAbsolute then q else { p with names := p.names ++ q.names }

/-- A path with one more name. -/
def child (p : Path) (name : String) : Path := { p with names := p.names ++ [name] }

/-- The path without its last name, or the path itself if it has none. -/
def parent (p : Path) : Path := { p with names := p.names.dropLast }

/-- The last name of a path, empty if it has none. -/
def name (p : Path) : String := p.names.getLast?.getD ""

/-- The last dot of a name with the text after it, if the dot is neither first nor last. -/
def suffixOf (name : String) : List Char :=
  let cs := name.toList
  let after := (cs.reverse.takeWhile (· ≠ '.')).reverse
  if after.isEmpty || cs.length ≤ after.length + 1 then [] else '.' :: after

/-- The suffix of a path. -/
def suffix (p : Path) : String := .ofList (suffixOf p.name)

/-- The last name of a path without its suffix. -/
def stem (p : Path) : String :=
  let cs := p.name.toList
  .ofList (cs.take (cs.length - (suffixOf p.name).length))

end Path

end Bulletin
