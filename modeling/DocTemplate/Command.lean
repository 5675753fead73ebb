import DocTemplate.FilePath

/-!
# Commands

What may be asked for on the command line: documents are rendered or checked.
-/

namespace DocTemplate

/-- Documents that are to be rendered. -/
structure RenderCommand where
  /-- The paths of the documents. -/
  inputs : List FilePath
  /-- The configuration file that is named. -/
  configFile : Option FilePath := none
  /-- The variable files that lie on top of those of the configuration, in order. -/
  variableFiles : List FilePath := []
  /-- The directory that the documents are written to; without one a document is printed. -/
  output : Option FilePath := none
  /-- Whether tags in fenced code are recognised, whatever the configuration says. -/
  conditionsInCode : Bool := false
  deriving DecidableEq, Repr

/-- Documents that are to be checked. -/
structure CheckCommand where
  /-- The paths of the documents. -/
  inputs : List FilePath
  /-- The configuration file that is named. -/
  configFile : Option FilePath := none
  deriving DecidableEq, Repr

/-- What is asked for. -/
inductive Command where
  /-- Documents are to be rendered. -/
  | render (c : RenderCommand)
  /-- Documents are to be checked. -/
  | check (c : CheckCommand)
  /-- The commands are to be described. -/
  | help
  /-- The version is to be told. -/
  | version
  deriving DecidableEq, Repr

end DocTemplate
