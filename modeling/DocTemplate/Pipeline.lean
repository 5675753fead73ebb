import DocTemplate.Document
import DocTemplate.Storage

/-!
# Pipelines

Documents go through stages in order. A stage takes all documents before the next one starts; the
first failure ends the run, and what has been done until then stays done. Stages are found by name,
so that others can be put in front of them or behind them. The standard pipeline resolves the tags
of the documents and writes them to an output directory.
-/

namespace DocTemplate

/-- Why a pipeline stops. -/
inductive PipelineError where
  /-- A document fails. -/
  | document (origin : Text) (f : Failure)
  /-- A file cannot be written. -/
  | file (e : FileError)
  /-- A stage refuses. -/
  | stage (name reason : Text)
  deriving DecidableEq, Repr

namespace PipelineError

/-- What is said of it. -/
def message : PipelineError → Text
  | document origin f => f.message origin
  | file e => "IO error: ".toList ++ e.message
  | stage name reason =>
    "stage '".toList ++ name ++ "' failed: ".toList ++ reason

/-- What lies behind it. -/
def causes : PipelineError → List Text
  | file e => [e.message]
  | document _ _ | stage _ _ => []

end PipelineError

/-- What all stages know. -/
structure Context where
  /-- The template engine. -/
  engine : Engine
  /-- The variables of all documents. -/
  vars : Variables
  /-- The directory that documents are written to. -/
  output : Option FilePath

/-- The documents and the files, at some time of a run. -/
structure Batch (σ : Type) where
  /-- The documents. -/
  documents : List Document
  /-- The files. -/
  files : σ

/-- A stage. -/
structure Stage (σ : Type) where
  /-- The name that it is found by. -/
  name : Text
  /-- What it does: the documents and files behind it, and why it stopped early if it did. -/
  process : Context → Batch σ → Batch σ × Option PipelineError

namespace Stage

variable {σ : Type}

/-- Resolves the tags of documents up to the first one that fails. -/
def renderDocuments (c : Context) : List Document → List Document × Option PipelineError
  | [] => ([], none)
  | d :: rest =>
    match d.render c.engine c.vars with
    | .error f => (d :: rest, some (.document d.path f))
    | .ok done =>
      let (others, stop) := renderDocuments c rest
      (done :: others, stop)

/-- The stage that resolves tags. -/
def rendering : Stage σ where
  name := "liquid".toList
  process c b :=
    let (documents, stop) := renderDocuments c b.documents
    ({ b with documents := documents }, stop)

/-- The name of the stage that writes documents. -/
def writingName : Text := "write".toList

/-- Why a document is not written whose tags have not been resolved. -/
def unrenderedReason (d : Document) : Text :=
  "document '".toList ++ d.path ++ "' was not rendered (was the liquid stage run?)".toList

/-- Writes documents to a directory, up to the first one that cannot be written. -/
def writeDocuments [Storage σ] (directory : FilePath) : List Document → σ → σ × Option PipelineError
  | [], files => (files, none)
  | d :: rest, files =>
    if d.rendered then
      match Storage.write files (FilePath.join directory d.outputPath) d.content with
      | .error e => (files, some (.file e))
      | .ok written => writeDocuments directory rest written
    else (files, some (.stage writingName (unrenderedReason d)))

/-- The stage that writes documents; without an output directory it does nothing. -/
def writing [Storage σ] : Stage σ where
  name := writingName
  process c b :=
    match c.output with
    | none => (b, none)
    | some directory =>
      let (files, stop) := writeDocuments directory b.documents b.files
      ({ b with files := files }, stop)

end Stage

/-- Stages in order. -/
structure Pipeline (σ : Type) where
  /-- The stages. -/
  stages : List (Stage σ)

namespace Pipeline

variable {σ : Type}

/-- No stages. -/
def empty : Pipeline σ := ⟨[]⟩

/-- Resolves tags, then writes documents. -/
def standard [Storage σ] : Pipeline σ := ⟨[.rendering, .writing]⟩

/-- The names of the stages in order. -/
def stageNames (p : Pipeline σ) : List Text := p.stages.map Stage.name

/-- Adds a stage at the end. -/
def add (p : Pipeline σ) (s : Stage σ) : Pipeline σ := ⟨p.stages ++ [s]⟩

/-- The position of the first stage of a name. -/
def position (p : Pipeline σ) (name : Text) : Except PipelineError Nat :=
  match p.stageNames.findIdx? (· == name) with
  | some i => .ok i
  | none => .error (.stage name "no such stage in pipeline".toList)

/-- Puts a stage at a position. -/
def insertAt (p : Pipeline σ) (i : Nat) (s : Stage σ) : Pipeline σ :=
  ⟨p.stages.take i ++ s :: p.stages.drop i⟩

/-- Puts a stage in front of the first one of a name. -/
def insertBefore (p : Pipeline σ) (name : Text) (s : Stage σ) :
    Except PipelineError (Pipeline σ) :=
  (p.position name).map fun i => p.insertAt i s

/-- Puts a stage behind the first one of a name. -/
def insertAfter (p : Pipeline σ) (name : Text) (s : Stage σ) :
    Except PipelineError (Pipeline σ) :=
  (p.position name).map fun i => p.insertAt (i + 1) s

/-- Runs stages in order up to the first one that stops early. -/
def runStages (c : Context) : List (Stage σ) → Batch σ → Batch σ × Option PipelineError
  | [], b => (b, none)
  | s :: rest, b =>
    match s.process c b with
    | (after, none) => runStages c rest after
    | (after, some stop) => (after, some stop)

/-- Runs the pipeline. -/
def run (p : Pipeline σ) (c : Context) (b : Batch σ) : Batch σ × Option PipelineError :=
  runStages c p.stages b

end Pipeline

end DocTemplate
