import DocTemplate.Command
import DocTemplate.Config
import DocTemplate.Pipeline
import DocTemplate.VariableFile

/-!
# Running commands

Rendering loads the configuration, then the variables, then the documents, and takes them through
the standard pipeline. Checking loads the configuration and parses one document behind the other; it
reports every document that fails, and stops only at one that cannot be read.
-/

namespace DocTemplate

/-- Why a command fails. -/
structure Trouble where
  /-- What is said of it. -/
  message : Text
  /-- What lies behind it, the nearest first. -/
  causes : List Text := []
  deriving DecidableEq, Repr

namespace Trouble

/-- A text with spaces in front of its lines; `mark` stands in front of the first one. -/
def indented (mark : Text) (t : Text) : Text :=
  let gap : Text := '\n' :: List.replicate mark.length ' '
  mark ++ gap.intercalate (Text.lines t)

/-- The causes, one below the other, with numbers if there are several. -/
def causeLines (causes : List Text) : List Text :=
  match causes with
  | [cause] => [indented "    ".toList cause]
  | several => (several.zipIdx).map fun (cause, i) =>
    indented ("    ".toList ++ Text.ofNat i ++ ": ".toList) cause

/-- The message with its causes. -/
def toText (t : Trouble) : Text :=
  if t.causes = [] then t.message
  else t.message ++ "\n\nCaused by:\n".toList ++ ['\n'].intercalate (causeLines t.causes)

end Trouble

/-- A document that fails. -/
structure Report where
  /-- What is said of it. -/
  message : Text
  /-- Its path. -/
  path : FilePath
  deriving DecidableEq, Repr

/-- The line of a report. -/
def Report.toText (r : Report) : Text := r.message ++ " document=".toList ++ r.path

/-- What a command does. -/
structure Outcome (σ : Type) where
  /-- What it prints. -/
  printed : Text := []
  /-- The documents that fail. -/
  reports : List Report := []
  /-- Why the command fails, if it does. -/
  trouble : Option Trouble := none
  /-- The files behind it. -/
  files : σ

/-- What a command knows of the place that it is run at. -/
structure Surroundings where
  /-- What paths lead to. -/
  look : FileLookup
  /-- The path of the working directory. -/
  workingDirectory : FilePath
  /-- The environment variables. -/
  environment : List (Text × Text)

namespace Trouble

/-- A configuration cannot be loaded. -/
def ofConfig (e : ConfigError) : Trouble := { message := e.message }

/-- A variable file gives no variables. -/
def ofVariableFile (e : VariableFileError) : Trouble := ⟨e.message, e.causes⟩

/-- A document cannot be read. -/
def ofDocument (p : FilePath) (e : FileError) : Trouble :=
  ⟨"failed to read ".toList ++ p, [e.message]⟩

/-- The pipeline stops early. -/
def ofPipeline (e : PipelineError) : Trouble := ⟨e.message, e.causes⟩

end Trouble

/-- Reads the document of a path. -/
def Document.load (look : FileLookup) (p : FilePath) : Except Trouble Document :=
  match look.read p with
  | .ok content => .ok ⟨p, content, false⟩
  | .error e => .error (.ofDocument p e)

/-- The report on a document that does not parse. -/
def Document.report? (engine : Engine) (d : Document) : Option Report :=
  match engine.parse d.content d.path with
  | .ok _ => none
  | .error f => some ⟨f.message d.path, d.path⟩

/-- Loads the configuration of a command. -/
def Surroundings.config (s : Surroundings) (named : Option FilePath) : Except Trouble Config :=
  (Config.load s.look s.workingDirectory s.environment named).mapError Trouble.ofConfig

/-- A number of documents in words. -/
def countText (n : Nat) : Text := Text.ofNat n ++ " documents".toList

namespace CheckCommand

/-- Checks documents one behind the other: the reports, and why checking stopped early if it did. -/
def checkAll (engine : Engine) (look : FileLookup) : List FilePath → List Report × Option Trouble
  | [] => ([], none)
  | p :: rest =>
    match Document.load look p with
    | .error t => ([], some t)
    | .ok d =>
      let (others, stop) := checkAll engine look rest
      ((d.report? engine).toList ++ others, stop)

/-- Checks the documents of the command. -/
def run {σ : Type} (c : CheckCommand) (s : Surroundings) (files : σ) : Outcome σ :=
  match s.config c.configFile with
  | .error t => { trouble := some t, files := files }
  | .ok config =>
    match checkAll ⟨config.settings, .standard⟩ s.look c.inputs with
    | (reports, some t) => { reports := reports, trouble := some t, files := files }
    | ([], none) =>
      { printed := "Checked ".toList ++ countText c.inputs.length ++ ['\n'], files := files }
    | (reports, none) =>
      let message := Text.ofNat reports.length ++ " of ".toList ++ countText c.inputs.length ++
        " have errors".toList
      { reports := reports, trouble := some { message := message }, files := files }

end CheckCommand

namespace RenderCommand

/-- The settings of the command: those of the configuration, except for what it asks for itself. -/
def settings (c : RenderCommand) (config : Config) : Settings :=
  if c.conditionsInCode then { config.settings with conditionsInCode := true } else config.settings

/-- What the pipeline of the command takes: what all stages know, and the documents. -/
def prepare (c : RenderCommand) (s : Surroundings) : Except Trouble (Context × List Document) := do
  let config ← s.config c.configFile
  let vars ←
    (Variables.ofFiles s.look (config.variableFiles ++ c.variableFiles)).mapError
      Trouble.ofVariableFile
  let documents ← c.inputs.mapM (Document.load s.look)
  return (⟨⟨c.settings config, .standard⟩, vars, c.output⟩, documents)

/-- What is printed when all documents have gone through the pipeline. -/
def summary (c : RenderCommand) (documents : List Document) : Text :=
  match c.output with
  | some directory =>
    "Rendered ".toList ++ countText documents.length ++ " to ".toList ++ directory ++ ['\n']
  | none => documents.flatMap Document.content

/-- Renders the documents of the command. -/
def run {σ : Type} [Storage σ] (c : RenderCommand) (s : Surroundings) (files : σ) : Outcome σ :=
  if c.output = none ∧ 1 < c.inputs.length then
    let message := "rendering ".toList ++ countText c.inputs.length ++
      " requires an output directory (-o)".toList
    { trouble := some { message := message }, files := files }
  else
    match c.prepare s with
    | .error t => { trouble := some t, files := files }
    | .ok (context, documents) =>
      match Pipeline.standard.run context ⟨documents, files⟩ with
      | (b, some e) => { trouble := some (.ofPipeline e), files := b.files }
      | (b, none) => { printed := c.summary b.documents, files := b.files }

end RenderCommand

namespace Command

/-- The name of the program with its version. -/
def versionText : Text := "undox-liquid 0.1.0\n".toList

/-- What is said of the commands. -/
def helpText : Text :=
  ([ "Usage: undox-liquid [-v]... <COMMAND>",
    "",
    "Commands:",
    "  render INPUT... [-c FILE] [--vars FILE]... [-o DIR] [--conditions-in-code]",
    "         Render documents, resolving template tags",
    "  check  INPUT... [-c FILE]",
    "         Check documents for tag errors without rendering them" ].map
      fun line => line.toList ++ ['\n']).flatten

/-- The configuration file that a command names, if it reads a configuration at all. -/
def configFile? : Command → Option (Option FilePath)
  | render c => some c.configFile
  | check c => some c.configFile
  | help | version => none

/-- The paths that a command looks at, whatever its configuration says. -/
def pathsToRead (c : Command) (workingDirectory : FilePath) : List FilePath :=
  let named := match c with
    | render c => c.inputs ++ c.variableFiles
    | check c => c.inputs
    | help | version => []
  match c.configFile? with
  | some file => Config.candidates (Config.pathOf workingDirectory file) ++ named
  | none => named

/-- The paths that a command looks at because its configuration says so. -/
def configuredPaths (c : Command) (s : Surroundings) : List FilePath :=
  match c.configFile? with
  | some file =>
    match s.config file with
    | .ok config => config.variableFiles
    | .error _ => []
  | none => []

/-- Runs a command. -/
def run {σ : Type} [Storage σ] (c : Command) (s : Surroundings) (files : σ) : Outcome σ :=
  match c with
  | .render c => c.run s files
  | .check c => c.run s files
  | .help => { printed := helpText, files := files }
  | .version => { printed := versionText, files := files }

end Command

end DocTemplate
