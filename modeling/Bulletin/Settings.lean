import Bulletin.Failure

/-! # Settings

A configuration has three tables, one for the Markdown parser, one for the reader of document trees
and one for the page renderer. A table gives values for known options, and values given on the
command line override it. What is not known is reported and left out; a table that is none, and a
value that an option refuses, are failures. -/

namespace Bulletin

/-- The tables of a configuration. -/
inductive Table where
  | markdown
  | tree
  | page
  deriving DecidableEq, Repr

namespace Table

/-- The name of a table in a configuration. -/
def name : Table → String
  | markdown => "markdown"
  | tree => "mdast"
  | page => "nexus"

/-- Every table, in the order in which they are read. -/
def all : List Table := [markdown, tree, page]

/-- The table with a name. -/
def ofName? (s : String) : Option Table := all.find? (·.name == s)

/-- The kind of the options that a table sets. -/
def kind : Table → OptionsKind
  | markdown => .markdown
  | tree => .tree
  | page => .page

end Table

/-- The options of the three parts of a conversion. -/
structure Settings where
  markdown : MarkdownOptions := {}
  tree : TreeOptions := {}
  page : PageOptions := {}
  deriving Inhabited, Repr

namespace Settings

/-- A table of a configuration, empty if it is missing. -/
def table (config : Fields) (t : Table) : Except Failure Fields :=
  match (config.get? t.name).getD (.dict []) with
  | .dict fields => .ok fields
  | v => .error (.argument s!"Config section [{t.name}] must be a table, got {v.typeName}")

/-- The known options of a table; each unknown one is reported. -/
def knownValues (t : Table) : Fields → Logged Failure Fields
  | [] => return []
  | (key, v) :: rest => do
    if (Options.fieldNames t.kind).contains key then
      return (key, v) :: (← knownValues t rest)
    else
      Logged.report .warning .configuration
        s!"Ignoring unknown option '{key}' in config section [{t.name}]"
      knownValues t rest

/-- The values that a configuration gives for the options of a table. -/
def values (config : Fields) (t : Table) : Logged Failure Fields := do
  knownValues t (← Logged.lift (table config t))

/-- The values that a configuration gives for the options of the table with a name. -/
def valuesOfName (config : Fields) (name : String) : Logged Failure Fields := do
  match Table.ofName? name with
  | some t => values config t
  | none =>
    match (config.get? name).getD (.dict []) with
    | .dict _ => throw (.noKey name)
    | v => throw (.argument s!"Config section [{name}] must be a table, got {v.typeName}")

/-- The values of a table with those given on the command line over them. -/
def merge (values overrides : Fields) : Fields :=
  overrides.foldl (fun fs p => fs.set p.1 p.2) values

/-- The options that a table sets, under given overrides. -/
def build (config : Fields) (overrides : Table → Fields) (t : Table) : Logged Failure Options := do
  let merged := merge (← values config t) (overrides t)
  Logged.lift ((Options.build t.kind merged).mapError (.settings t.name))

/-- The settings with the options of one part replaced. -/
def put (s : Settings) : Options → Settings
  | .markdown o => { s with markdown := o }
  | .tree o => { s with tree := o }
  | .page o => { s with page := o }
  | _ => s

/-- Reports the tables that are not known. -/
def reportUnknown (config : Fields) : Logged Failure Unit :=
  config.forM fun (key, _) =>
    if (Table.ofName? key).isNone then
      Logged.report .warning .configuration s!"Ignoring unknown config section [{key}]"
    else return ()

/-- The settings of a configuration, under overrides for each table. -/
def ofConfig (config : Fields) (overrides : Table → Fields) : Logged Failure Settings := do
  reportUnknown config
  Table.all.foldlM (fun s t => return s.put (← build config overrides t)) {}

end Settings

end Bulletin
