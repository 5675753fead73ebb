import DocTemplate.Expression
import DocTemplate.Location

/-!
# Document trees

A document is a list of nodes: text, interpolations, loops and conditions, the latter two with
lists of nodes inside.
-/

namespace DocTemplate

/-- How the iterations of a loop are joined. -/
inductive LoopLayout where
  /-- The loop opens on a line of its own: the iterations are stacked line by line. -/
  | block
  /-- The loop opens among other things on its line: the iterations are joined in the line. -/
  | inline
  deriving DecidableEq, Repr

/-- An interpolation with what messages need to name it. -/
structure Interpolation where
  /-- What it shows. -/
  pipe : Pipe
  /-- The tag as it is written. -/
  raw : Text
  /-- Where the tag stands. -/
  location : Location
  deriving DecidableEq

/-- A node of a document. -/
inductive Node where
  /-- Text that is rendered as it is. -/
  | text (t : Text)
  /-- A place where a value is shown. -/
  | interpolation (i : Interpolation)
  /-- A body that is rendered once for each item of a sequence. -/
  | loop (head : LoopHead) (layout : LoopLayout) (body : List Node)
  /-- Two bodies, of which one is rendered; a missing alternative is an empty one. -/
  | conditional (condition : Path) (consequent alternative : List Node)

end DocTemplate
