import DocTemplate.Text.Basic

/-!
# Places in a YAML text

YAML counts five line breaks: line feed, carriage return (alone or in front of a line feed), next
line, line separator and paragraph separator. A cursor is a place in a text: the text from there on
and how far it is from the start of the text and of its line.
-/

namespace DocTemplate

namespace Yaml

/-- A line break of one character. -/
def isBreak (c : Char) : Bool :=
  c == '\n' || c == '\r' || c == '\u0085' || c == '\u2028' || c == '\u2029'

/-- A space or a tab. -/
def isGap (c : Char) : Bool := c == ' ' || c == '\t'

/-- A space, a tab or a line break. -/
def isSeparator (c : Char) : Bool := isGap c || isBreak c

/-- Whether a text is at its end or starts with a line break. -/
def atBreak : Text → Bool
  | [] => true
  | c :: _ => isBreak c

/-- Whether a text is at its end or starts with a space, a tab or a line break. -/
def atSeparator : Text → Bool
  | [] => true
  | c :: _ => isSeparator c

/-- The characters of names of anchors, tag handles and directives. -/
def isWordChar (c : Char) : Bool := c.isAlphanum || c == '_' || c == '-'

/-- Whether a character may stand in a YAML text. -/
def isPrintable (c : Char) : Bool :=
  let n := c.toNat
  n == 0x09 || n == 0x0A || n == 0x0D || (0x20 ≤ n && n ≤ 0x7E) || n == 0x85 ||
    (0xA0 ≤ n && n ≤ 0xD7FF) || (0xE000 ≤ n && n ≤ 0xFFFD) || 0x10000 ≤ n

/-- Whether a line starts with the given three characters of a document marker. -/
def startsMarker (marker : Text) (t : Text) : Bool := marker.isPrefixOf t && atSeparator (t.drop 3)

/-- What starts a document. -/
def documentStart : Text := ['-', '-', '-']

/-- What ends a document. -/
def documentEnd : Text := ['.', '.', '.']

/-- Whether a line starts with a document marker. -/
def atDocumentMarker (t : Text) : Bool := startsMarker documentStart t || startsMarker documentEnd t

/-- What a line break counts as: a line feed, except that the two Unicode separators stay. -/
def breakText (c : Char) : Text := if c = '\u2028' ∨ c = '\u2029' then [c] else ['\n']

/-- A place in a text. -/
structure Cursor where
  /-- The text from here on. -/
  rest : Text
  /-- How many characters stand in front of it. -/
  index : Nat
  /-- How many lines end in front of it. -/
  line : Nat
  /-- How many characters of its line stand in front of it. -/
  column : Nat
  deriving DecidableEq, Repr

namespace Cursor

/-- The start of a text. -/
def start (t : Text) : Cursor := ⟨t, 0, 0, 0⟩

/-- Passes over characters that are no line breaks. -/
def skip (c : Cursor) (n : Nat) : Cursor := ⟨c.rest.drop n, c.index + n, c.line, c.column + n⟩

/-- Passes over one line break. -/
def skipBreak (c : Cursor) : Cursor :=
  match c.rest with
  | '\r' :: '\n' :: t => ⟨t, c.index + 2, c.line + 1, 0⟩
  | _ :: t => ⟨t, c.index + 1, c.line + 1, 0⟩
  | [] => c

/-- The characters up to the first one that does not satisfy `p`, and the place behind them; `p`
holds for no line break. -/
def takeWhile (c : Cursor) (p : Char → Bool) : Text × Cursor :=
  let taken := c.rest.takeWhile p
  (taken, c.skip taken.length)

/-- Passes over spaces and tabs. -/
def skipGaps (c : Cursor) : Cursor := (c.takeWhile isGap).2

/-- Passes over a comment, if one starts here. -/
def skipComment (c : Cursor) : Cursor :=
  if c.rest.head? = some '#' then (c.takeWhile fun d => !isBreak d).2 else c

/-- Passes over one line break; what it counts as. -/
def takeBreak (c : Cursor) : Text × Cursor :=
  match c.rest with
  | [] => ([], c)
  | d :: _ => (breakText d, c.skipBreak)

/-- A line break shortens the text. -/
theorem length_skipBreak {c : Cursor} {d : Char} {t : Text} (h : c.rest = d :: t) :
    c.skipBreak.rest.length < c.rest.length := by
  unfold skipBreak
  split
  · next hr => rw [hr]; exact Nat.lt_add_of_pos_right (by decide : 0 < 2)
  · next hr => rw [hr]; exact Nat.lt_succ_self _
  · next hr => exact absurd (h.symm.trans hr) (List.cons_ne_nil _ _)

/-- Passes over spaces, tabs and line breaks, and where that leads to. -/
def skipSeparators (c : Cursor) : Cursor :=
  match _h : c.rest with
  | [] => c
  | d :: _ =>
    if isBreak d then c.skipBreak.skipSeparators
    else if isGap d then (c.skip 1).skipSeparators
    else c
termination_by c.rest.length
decreasing_by
  · exact length_skipBreak _h
  · simp [skip, _h]

end Cursor

end Yaml

end DocTemplate
