import DocTemplate.Text.Basic

/-!
# Dotted paths

A path names a variable and a place inside it, such as `project.pages.0`. It is written as one or
more segments joined by dots; a segment is a run of ASCII letters, digits, underscores and dashes.
Names of loop variables and filters are stricter: they hold no dash and start with no digit.
-/

namespace DocTemplate

/-- What a path segment may hold: ASCII letters and digits, `_` and `-`. -/
def isSegmentChar (c : Char) : Bool := c.isAlphanum || c == '_' || c == '-'

/-- A path segment is not empty and holds segment characters only. -/
def isSegment (t : Text) : Bool := !t.isEmpty && t.all isSegmentChar

/-- A name of a loop variable or filter: an ASCII letter or `_`, then ASCII letters, digits
and `_`. -/
def isIdentifier : Text → Bool
  | [] => false
  | c :: t => (c.isAlpha || c == '_') && t.all fun d => d.isAlphanum || d == '_'

/-- A dotted path. -/
structure Path where
  /-- The name of the variable that the path starts from. -/
  head : Text
  /-- The steps from there. -/
  tail : List Text
  /-- Every part is a segment. -/
  valid : ∀ s ∈ head :: tail, isSegment s = true
  deriving DecidableEq

namespace Path

/-- The head and the steps behind it. -/
def segments (p : Path) : List Text := p.head :: p.tail

/-- The path with the given segments, if there is one. -/
def ofSegments? : List Text → Option Path
  | [] => none
  | head :: tail =>
    if h : ∀ s ∈ head :: tail, isSegment s = true then some ⟨head, tail, h⟩ else none

/-- Reads a path: every piece between two dots has to be a segment. -/
def ofText? (t : Text) : Option Path := ofSegments? (Text.splitOn '.' t)

/-- The segments joined by dots. -/
def toText (p : Path) : Text := ['.'].intercalate p.segments

@[simp] theorem segments_mk (head : Text) (tail : List Text) (valid) :
    (Path.mk head tail valid).segments = head :: tail := rfl

/-- Reading segments gives back just these segments. -/
theorem segments_of_ofSegments? {ss : List Text} {p : Path} (h : ofSegments? ss = some p) :
    p.segments = ss := by
  cases ss with
  | nil => simp [ofSegments?] at h
  | cons head tail =>
    rw [ofSegments?] at h
    split at h
    · simp only [Option.some.injEq] at h; rw [← h, segments_mk]
    · simp at h

end Path

end DocTemplate
