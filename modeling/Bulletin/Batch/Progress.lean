import Bulletin.Batch
import Bulletin.Console

/-! # Progress of a batch

What a console shows of a batch: the directory, and a line for each result. -/

namespace Bulletin.Batch

open Console (Cell styled)

/-- The line of the directory of a batch. -/
def headerLine (directory : Path) : List Cell := styled .heading directory.toString

/-- The line of a result. -/
def resultLine (r : Result) : List Cell :=
  styled .plain "    " ++ styled .source r.source.toString ++ styled .plain " => " ++
    styled .destination r.destination.toString ++
    match r.failure with
    | none => []
    | some f => styled .plain " " ++ styled .failure ("failed: " ++ f.message)

end Bulletin.Batch
