import Bulletin.Convert

/-! # Batches

A batch converts the Markdown files right inside a directory to pages in another one. The sources
are taken in the order of their names, and each gives a result, in that order. A failure ends the
batch, unless failures are to be skipped: then it is the result of its source. What was written
before a failure stays; where several workers are at work, the sources after the failure are
converted too, but have no result. -/

namespace Bulletin.Batch

/-- What one source of a batch comes to: it is converted, or there is the failure. -/
structure Result where
  source : Path
  destination : Path
  failure : Option Failure := none

/-- What a batch comes to: the results, and the failure that ended it, if one did. -/
structure Report where
  results : List Result := []
  failure : Option Failure := none

/-- How a batch is done. -/
structure Plan where
  input : String
  output : Path := Path.ofString "."
  workers : Int := 1
  skipFailures : Bool := false
  reader : Option Options := none
  renderer : Option Options := none
  tokenizer : Tokenizer := ownTokenizer

/-- The suffixes of Markdown files. -/
def sourceSuffixes : List String := [".md", ".markdown", ".mdown", ".mkd", ".mkdn"]

/-- The path of the page of a source in a directory. -/
def outputPath (source directory : Path) : Path := directory.child (source.stem ++ ".bbcode")

/-- Names in order. -/
def sorted (names : List String) : List String := names.mergeSort fun x y => decide (x ≤ y)

/-- Whether a path has the suffix of a Markdown file. -/
def hasSourceSuffix (p : Path) : Bool := sourceSuffixes.contains (Text.lower p.suffix)

/-- The Markdown files among paths; the others are skipped. -/
def pickSources : List Path → Job (List Path)
  | [] => return []
  | p :: rest => do
    if (← Files.isFile p) && hasSourceSuffix p then
      return p :: (← pickSources rest)
    else
      Job.report .debug .conversion s!"Skipping {p}"
      pickSources rest

/-- The Markdown files right inside a directory, in the order of their names. -/
def findSources (directory : Path) : Job (List Path) := do
  match ← Files.look directory with
  | none => throw (.fileNotFound directory.toString)
  | some (.file _) => throw (.notDirectory directory.toString)
  | some .directory => pickSources ((sorted (← Files.names directory)).map directory.child)

/-- The conversion of one source to a directory. -/
def convertSource (plan : Plan) (directory source : Path) : Job Result := do
  let destination := outputPath source directory
  match ← Job.attempt (convertFile source (some destination) (.str Format.markdown.name)
    plan.reader plan.renderer plan.tokenizer) with
  | .ok _ => return ⟨source, destination, none⟩
  | .error f =>
    if plan.skipFailures && f.kind.isLibrary then
      Job.report .error .conversion s!"Failed to convert {source}: {f.message}"
      return ⟨source, destination, some f⟩
    else throw f

/-- The conversion of sources to a directory, in order. -/
def convertEach (plan : Plan) (directory : Path) : List Path → StateM Workspace Report
  | [] => return {}
  | source :: rest => do
    match ← (convertSource plan directory source).run with
    | .ok r =>
      let report ← convertEach plan directory rest
      return { report with results := r :: report.results }
    | .error f =>
      if plan.workers ≠ 1 then let _ ← convertEach plan directory rest
      return { failure := some f }

/-- The sources of a batch, and the directory for their pages, which is made if it is missing. -/
def prepare (plan : Plan) : Job (List Path × Path) := do
  if plan.workers < 1 then throw (.workers plan.workers)
  let sources ← findSources (.ofString plan.input)
  let directory ← Files.ensureDirectory plan.output
  Job.report .info .conversion
    s!"Converting {sources.length} file(s) from {plan.input} into {directory}"
  return (sources, directory)

/-- The batch of a plan. -/
def run (plan : Plan) : StateM Workspace Report := do
  match ← (prepare plan).run with
  | .ok (sources, directory) => convertEach plan directory sources
  | .error f => return { failure := some f }

end Bulletin.Batch
