import DocTemplate.Engine
import DocTemplate.FilePath

/-!
# Documents

A document has the path that it was read from and a content, which starts as its source. Its place
in an output directory follows from its path: a relative path keeps its names, an absolute path only
the last one.
-/

namespace DocTemplate

/-- A document that is being processed. -/
structure Document where
  /-- The path that it was read from. -/
  path : FilePath
  /-- Its content so far. -/
  content : Text
  /-- Whether its tags have been resolved. -/
  rendered : Bool := false
  deriving DecidableEq, Repr

namespace Document

/-- The name of a component, if it is one. -/
def nameOf? : Component → Option Text
  | .normal name => some name
  | .root | .current | .parent => none

/-- The names in a path. -/
def namesIn (p : FilePath) : List Text := (FilePath.components p).filterMap nameOf?

/-- Where the document of a path lies in an output directory. -/
def outputPathOf (p : FilePath) : FilePath :=
  if FilePath.isAbsolute p then (FilePath.fileName p).getD [] else FilePath.ofNames (namesIn p)

/-- Where the document lies in an output directory. -/
def outputPath (d : Document) : FilePath := outputPathOf d.path

/-- Resolves the tags of the document. -/
def render (d : Document) (engine : Engine) (vars : Variables) : Except Failure Document :=
  (engine.render d.content vars).map fun t => { d with content := t, rendered := true }

end Document

end DocTemplate
