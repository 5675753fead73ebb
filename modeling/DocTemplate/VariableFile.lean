import DocTemplate.Json.Read
import DocTemplate.Storage
import DocTemplate.Value.OfJson
import DocTemplate.Value.OfYaml
import DocTemplate.Yaml.Read

/-!
# Variable files

Variables are read from YAML and JSON files; the extension of the path decides which. Several files
are read in order, each on top of those before it, and the first one that cannot be read ends the
reading.
-/

namespace DocTemplate

/-- The format of a variable file. -/
inductive VariableFormat where
  /-- YAML. -/
  | yaml
  /-- JSON. -/
  | json
  deriving DecidableEq, Repr

/-- The format that the extension of a path stands for. -/
def VariableFormat.ofPath? (p : FilePath) : Option VariableFormat :=
  match FilePath.extension p with
  | none => none
  | some extension =>
    if extension = "yaml".toList ∨ extension = "yml".toList then some yaml
    else if extension = "json".toList then some json
    else none

/-- Why a variable file gives no variables. -/
inductive VariableFileProblem where
  /-- It cannot be read. -/
  | unreadable (e : FileError)
  /-- It is no YAML document; what the reader of YAML has to say of it is not kept. -/
  | invalidYaml
  /-- It is no JSON document; what the reader of JSON has to say of it is not kept. -/
  | invalidJson
  /-- Its extension stands for no format. -/
  | unsupportedFormat
  /-- What it holds is no mapping. -/
  | notAMapping (e : NotAMapping)
  deriving DecidableEq, Repr

/-- A variable file that gives no variables. -/
structure VariableFileError where
  /-- Its path. -/
  path : FilePath
  /-- Why it gives none. -/
  problem : VariableFileProblem
  deriving DecidableEq, Repr

namespace VariableFileError

/-- What is said of the file. Of content that is no document it is only said which format it is not
in: the readers of the formats tell whether there is a tree, not where and why there is none, so
their own words, which would stand behind a colon, are not part of the message. -/
def message (e : VariableFileError) : Text :=
  match e.problem with
  | .unreadable cause =>
    "failed to read variables file ".toList ++ e.path ++ ": ".toList ++ cause.message
  | .invalidYaml => "invalid YAML in ".toList ++ e.path
  | .invalidJson => "invalid JSON in ".toList ++ e.path
  | .unsupportedFormat =>
    "unsupported variables file ".toList ++ e.path ++ " (expected .yaml, .yml or .json)".toList
  | .notAMapping cause => e.path ++ ": ".toList ++ cause.message

/-- What lies behind it. The words of the readers of YAML and JSON are left out here too. -/
def causes (e : VariableFileError) : List Text :=
  match e.problem with
  | .unreadable cause => [cause.message]
  | .notAMapping cause => [cause.message]
  | .invalidYaml | .invalidJson | .unsupportedFormat => []

end VariableFileError

namespace Variables

/-- The variables that the content of a file gives. -/
def ofContent (path : FilePath) (content : Text) : Except VariableFileError Variables :=
  let refuse (p : VariableFileProblem) : VariableFileError := ⟨path, p⟩
  match VariableFormat.ofPath? path with
  | none => .error (refuse .unsupportedFormat)
  | some .yaml =>
    match Yaml.ofText? content with
    | none => .error (refuse .invalidYaml)
    | some tree => (ofYaml tree).mapError fun e => refuse (.notAMapping e)
  | some .json =>
    match Json.ofText? content with
    | none => .error (refuse .invalidJson)
    | some tree => (ofJson tree).mapError fun e => refuse (.notAMapping e)

/-- The variables of a file. -/
def ofFile (look : FileLookup) (path : FilePath) : Except VariableFileError Variables :=
  match look.read path with
  | .error e => .error ⟨path, .unreadable e⟩
  | .ok content => ofContent path content

/-- The variables of files, each on top of those before it. -/
def ofFiles (look : FileLookup) (paths : List FilePath) : Except VariableFileError Variables :=
  paths.foldlM (fun vars path => (ofFile look path).map vars.merge) empty

end Variables

end DocTemplate
