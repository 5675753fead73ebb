import DocTemplate.Node
import DocTemplate.Text.Blank

/-!
# Joining the iterations of a loop

A loop on lines of its own stacks its iterations, each without the blank lines at its end. A loop in
a line joins them: between two visible iterations stays the wider of the two runs of blanks that
face each other, and at the outer edges a run stays only if it breaks the line. Nothing but blanks
is ever dropped, and nothing is added.
-/

namespace DocTemplate

/-- A text without the blank lines at its end. Its last visible line keeps its end, and a text with
nothing visible becomes empty. -/
def dropTrailingBlankLines (t : Text) : Text :=
  if Text.trimEnd t = [] then []
  else Text.trimEnd t ++ Text.throughLineFeed (Text.trailingBlanks t)

/-- A visible text between the blanks at its two ends. -/
structure Edged where
  /-- The blanks in front. -/
  lead : Text
  /-- The text from its first to its last visible character. -/
  content : Text
  /-- The blanks behind. -/
  trail : Text
  deriving DecidableEq, Repr

/-- Takes the blanks off the two ends of a text, if there is something visible between them. -/
def Edged.ofText? (t : Text) : Option Edged :=
  if Text.trim t = [] then none
  else some ⟨Text.leadingBlanks t, Text.trim t, Text.trailingBlanks t⟩

/-- A run of blanks at the edge of a joined text: it stays if it breaks the line. -/
def edgeGap (run : Text) : Text := if run.contains '\n' then run else []

/-- The wider of two runs of blanks: the one with more line feeds, else the one with the larger
size, else the first one. -/
def widerGap (before after : Text) : Text :=
  if after.count '\n' < before.count '\n' then before
  else if before.count '\n' < after.count '\n' then after
  else if Text.utf8Size before < Text.utf8Size after then after
  else before

/-- Joins visible texts to one that ended with the blanks `before`. -/
def joinBehind (before : Text) : List Edged → Text
  | [] => edgeGap before
  | e :: rest => widerGap before e.lead ++ e.content ++ joinBehind e.trail rest

/-- Joins visible texts. -/
def joinVisible : List Edged → Text
  | [] => []
  | e :: rest => edgeGap e.lead ++ e.content ++ joinBehind e.trail rest

/-- Joins texts in a line; those with nothing visible leave no trace. -/
def joinInline (pieces : List Text) : Text := joinVisible (pieces.filterMap Edged.ofText?)

/-- Stacks texts line by line. -/
def stackBlock (pieces : List Text) : Text := pieces.flatMap dropTrailingBlankLines

/-- Joins the iterations of a loop. -/
def LoopLayout.join : LoopLayout → List Text → Text
  | block => stackBlock
  | inline => joinInline

end DocTemplate
