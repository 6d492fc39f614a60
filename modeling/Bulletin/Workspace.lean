import Bulletin.Failure
import Bulletin.Log
import Bulletin.Store
import Bulletin.Text.Utf8

/-! # Workspaces

A workspace is a store of files, the directory in it where one works, and the records reported so
far. A task may fail, and what it has written and reported before stays. Reading and writing of
texts are the first tasks: a text is written in UTF-8. -/

namespace Bulletin

/-- Where a task is done. -/
structure Workspace where
  store : Store := {}
  here : Address := []
  log : List Record := []
  deriving Inhabited

/-- A computation on a workspace that may fail. -/
abbrev Job := ExceptT Failure (StateM Workspace)

namespace Job

/-- A computation that only reports, as a task. -/
def ofLogged {α : Type} (x : Logged Failure α) : Job α := ExceptT.mk fun w =>
  let (r, log) := x.run.run w.log
  (r, { w with log })

/-- Reports one record. -/
def report (level : Level) (source : Source) (message : String) : Job Unit :=
  modify fun w => { w with log := w.log ++ [⟨level, source, message⟩] }

/-- The result of a task with the workspace after it, whether it fails or not. -/
def attempt {α : Type} (t : Job α) : Job (Except Failure α) := ExceptT.mk do
  return .ok (← t.run)

end Job

/-- The text of bytes, which are called by a name in a failure. -/
def decodeText (bytes : List UInt8) (name : String) : Except Failure String :=
  match Text.decode bytes with
  | .ok cs => .ok (.ofList cs)
  | .error why => .error (.notUtf8 name why)

/-- The bytes of a text. -/
def encodeText (s : String) : List UInt8 := Text.encode s.toList

namespace Files

/-- What an operation at a path gives; why it fails is told as the system does. -/
def ofFault {α : Type} (p : Path) (x : Except FileFault α) : Job α :=
  Job.ofLogged (Logged.lift (x.mapError fun fault => .system fault p.toString))

/-- What stands at a path, if anything does. -/
def look (p : Path) : Job (Option Entry) := do
  let w ← get
  ofFault p (w.store.look? w.here p)

/-- Whether there is a file at a path. -/
def isFile (p : Path) : Job Bool := do
  match ← look p with
  | some (.file _) => return true
  | _ => return false

/-- The names in the directory at a path. -/
def names (p : Path) : Job (List String) := do
  let w ← get
  ofFault p (w.store.namesAt w.here p)

/-- The text of a file, without its byte order mark. -/
def readText (p : Path) : Job String := do
  let w ← get
  match w.store.read w.here p with
  | .error .missing => throw (.fileNotFound p.toString)
  | .error _ => throw (.fileAccess p.toString)
  | .ok bytes =>
    Job.report .debug .files s!"Read {bytes.length} bytes from {p}"
    Job.ofLogged (Logged.lift (decodeText bytes p.toString))

/-- Writes a text to a file. -/
def writeText (content : String) (p : Path) : Job Unit := do
  let w ← get
  match w.store.write w.here p (encodeText content) with
  | .error _ => throw (.outputWrite p.toString)
  | .ok store =>
    set { w with store }
    Job.report .debug .files s!"Wrote {content.length} characters to {p}"

/-- Makes a directory, and those above it where they are missing. -/
def ensureDirectory (p : Path) : Job Path := do
  let w ← get
  let (store, fault) := w.store.make w.here p
  set { w with store }
  match fault with
  | none => return p
  | some _ => throw (.outputDirectory p.toString)

end Files

end Bulletin
