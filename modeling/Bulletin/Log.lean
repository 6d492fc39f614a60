/-! # Log records

What a computation reports beside its result: records with a level, the name of the part that
speaks, and a message. A computation that fails has still reported what it reported before. -/

namespace Bulletin

/-- The weight of a log record. -/
inductive Level where
  | debug
  | info
  | warning
  | error
  deriving DecidableEq, Repr

namespace Level

/-- The number of a level; a higher one is graver. -/
def rank : Level → Nat
  | debug => 10
  | info => 20
  | warning => 30
  | error => 40

/-- The name of a level. -/
def name : Level → String
  | debug => "DEBUG"
  | info => "INFO"
  | warning => "WARNING"
  | error => "ERROR"

end Level

/-- The part of the program that speaks in a record. -/
inductive Source where
  | conversion
  | treeReader
  | treeDocuments
  | markdown
  | renderer
  | configuration
  | files
  | command
  | root
  deriving DecidableEq, Repr

/-- The name of a part in a record. -/
def Source.name : Source → String
  | .conversion => "md2nexus.api"
  | .treeReader => "md2nexus.ast.serialization"
  | .treeDocuments => "md2nexus.parsers.mdast_json"
  | .markdown => "md2nexus.parsers.markdown"
  | .renderer => "md2nexus.renderers.nexus"
  | .configuration => "md2nexus.cli.config"
  | .files => "md2nexus.utils.io_utils"
  | .command => "md2nexus.cli.processors"
  | .root => "root"

/-- One log record. -/
structure Record where
  level : Level
  source : Source
  message : String
  deriving DecidableEq, Repr

/-- A computation that may fail, and reports records in any case. -/
abbrev Logged (ε : Type) := ExceptT ε (StateM (List Record))

namespace Logged

/-- Reports one record. -/
def report {ε : Type} (level : Level) (source : Source) (message : String) : Logged ε Unit :=
  modify (· ++ [⟨level, source, message⟩])

/-- A computation that reports nothing. -/
def lift {ε α : Type} (x : Except ε α) : Logged ε α := ExceptT.mk (pure x)

/-- The result of a computation and the records it reports. -/
def outcome {ε α : Type} (x : Logged ε α) : Except ε α × List Record := x.run.run []

/-- A computation whose failures are taken over into another kind. -/
def mapError {ε ε' α : Type} (f : ε → ε') (x : Logged ε α) : Logged ε' α :=
  ExceptT.mk ((Except.mapError f) <$> x.run)

end Logged

end Bulletin
