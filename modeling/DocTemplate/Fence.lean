import DocTemplate.Text.Blank
import DocTemplate.Location

/-!
# Fenced code

A line whose first visible characters are three backticks opens or closes a fenced block of code.
A delimiter line belongs to the block on either side of it, fences do not nest, and a block that is
never closed reaches to the end of the source. So a line is fenced when it is a delimiter or when
the number of delimiters above it is odd.
-/

namespace DocTemplate.Fence

/-- What a delimiter line starts with. -/
def marker : Text := ['\x60', '\x60', '\x60']

/-- Whether a line opens or closes a fence: blanks may stand in front of the marker. -/
def isDelimiter (line : Text) : Bool := marker.isPrefixOf (Text.trimStart line)

/-- Which of the given lines are fenced, if the block above them is open or not. -/
def classify (inside : Bool) : List Text → List Bool
  | [] => []
  | line :: rest =>
    if isDelimiter line then true :: classify (!inside) rest else inside :: classify inside rest

/-- Which lines of a source are fenced. -/
def lineFlags (source : Text) : List Bool := classify false (Text.lines source)

/-- The number of lines of a source. -/
def lineCount (source : Text) : Nat := (Text.lines source).length

/-- Whether the line of an index, counted from zero, is fenced; a line that is not there is not. -/
def isLineInside (source : Text) (index : Nat) : Bool := (lineFlags source).getD index false

/-- Whether the line that holds a byte offset is fenced. -/
def isInside (source : Text) (offset : Nat) : Bool :=
  isLineInside source (Text.lineIndex source offset)

@[simp] theorem length_classify (inside : Bool) (ls : List Text) :
    (classify inside ls).length = ls.length := by
  induction ls generalizing inside with
  | nil => rfl
  | cons l ls ih => rw [classify]; split <;> simp [ih]

/-- There is one flag for each line. -/
theorem length_lineFlags (source : Text) : (lineFlags source).length = lineCount source := by
  simp [lineFlags, lineCount]

/-- Only an index of a line is fenced. -/
theorem lt_lineCount_of_isLineInside {source : Text} {index : Nat}
    (h : isLineInside source index = true) : index < lineCount source := by
  rw [← length_lineFlags]
  rcases Nat.lt_or_ge index (lineFlags source).length with hlt | hge
  · exact hlt
  · rw [isLineInside, List.getD_eq_getElem?_getD, List.getElem?_eq_none hge] at h
    cases h

end DocTemplate.Fence
