/-!
# Settings

The switches that decide which tags of a source are evaluated. A tag that is switched off stays in
the text as it is written.
-/

namespace DocTemplate

/-- Which tags are recognised. The defaults recognise every kind of tag outside fenced code. -/
structure Settings where
  /-- Whether tags on lines of fenced code are evaluated too. -/
  conditionsInCode : Bool := false
  /-- Whether loops are recognised. -/
  cycles : Bool := true
  /-- Whether conditions are recognised. -/
  conditions : Bool := true
  /-- Whether interpolations are recognised. -/
  substitutions : Bool := true
  /-- Whether an escaped interpolation keeps the word that escapes it. -/
  keepNotVar : Bool := false
  deriving DecidableEq, Repr

end DocTemplate
