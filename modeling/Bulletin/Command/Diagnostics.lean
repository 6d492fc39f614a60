import Bulletin.Command.Arguments
import Bulletin.Log
import Bulletin.Text.Casing

/-! # Diagnostics of the command

Which records the command shows, and how. A record is one line with its level and its message; a
traced one also tells the time and the part that speaks. -/

namespace Bulletin.Command

/-- The names of levels. -/
def levelNumbers : List (String × Nat) :=
  [("CRITICAL", 50), ("FATAL", 50), ("ERROR", 40), ("WARN", 30), ("WARNING", 30), ("INFO", 20),
    ("DEBUG", 10), ("NOTSET", 0)]

/-- The number of the level with a name, whatever its case; an unknown name means a warning. -/
def levelOfName (name : String) : Nat := ((levelNumbers.lookup (Text.upper name))).getD 30

/-- The number of a level that is given by number or by name; a truth value counts as a number. -/
def levelOf : Value → Value
  | .int n => .int n
  | .bool b => .bool b
  | v => .int (levelOfName v.display)

/-- The number of the level from which on records are shown: tracing shows all, and so does
verbosity where no other level is asked for. -/
def Arguments.threshold (a : Arguments) : Nat :=
  if a.trace || (a.verbose && a.logLevel = "WARNING") then Level.debug.rank
  else levelOfName a.logLevel

/-- The line of a record; a traced one tells the time. -/
def recordLine (trace : Bool) (clock : String) (r : Record) : String :=
  if trace then s!"[{clock}] [{r.level.name}] [{r.source.name}] {r.message}\n"
  else s!"{r.level.name}: {r.message}\n"

/-- The lines of the records that are shown. -/
def recordLines (a : Arguments) (clock : String) (log : List Record) : String :=
  String.join ((log.filter fun r => a.threshold ≤ r.level.rank).map (recordLine a.trace clock))

end Bulletin.Command
