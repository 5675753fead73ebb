import DocTemplate.Yaml.Cursor

/-!
# Block scalars

A bar or an angle starts a scalar that consists of the indented lines below. Behind a bar lines are
kept; behind an angle they are folded, except next to lines that start with a space or tab. Its
indentation is given by a digit or by its first line, and a sign decides what becomes of the line
breaks at its end.
-/

namespace DocTemplate.Yaml

/-- What becomes of the line breaks at the end of a block scalar. -/
inductive Chomping where
  /-- None is kept. -/
  | strip
  /-- One is kept. -/
  | clip
  /-- All are kept. -/
  | keep
  deriving DecidableEq, Repr

/-- The sign of a chomping. -/
def Chomping.ofSign? (c : Char) : Option Chomping :=
  if c = '+' then some keep else if c = '-' then some strip else none

/-- What the first line of a block scalar says. -/
structure BlockHeader where
  /-- The chomping. -/
  chomping : Chomping
  /-- The indentation relative to the block around, if it is given. -/
  indent : Option Nat
  deriving DecidableEq, Repr

/-- An indentation that is given: a digit other than zero. -/
def indentDigit? (c : Char) : Option Nat :=
  if '1' ≤ c ∧ c ≤ '9' then some (c.toNat - '0'.toNat) else none

/-- Reads the marks behind a bar or an angle: a sign and a digit in either order. -/
def blockHeader? (c : Cursor) : Option (BlockHeader × Cursor) :=
  let digitAt (c : Cursor) : Option (Option Nat × Cursor) :=
    match c.rest with
    | d :: _ =>
      if d.isDigit then (indentDigit? d).map fun n => (some n, c.skip 1) else some (none, c)
    | [] => some (none, c)
  let signAt (c : Cursor) : Option Chomping × Cursor :=
    match c.rest.head?.bind Chomping.ofSign? with
    | some s => (some s, c.skip 1)
    | none => (none, c)
  match signAt c with
  | (some s, c) => (digitAt c).map fun (n, c) => (⟨s, n⟩, c)
  | (none, c) =>
    match digitAt c with
    | none => none
    | some (none, c) => some (⟨.clip, none⟩, c)
    | some (some n, c) =>
      let (s, c) := signAt c
      some (⟨s.getD .clip, some n⟩, c)

/-- Passes over the indentation of lines without content. `indent` is the indentation of the
scalar, if it is known. The result is the line breaks that are passed, the widest indentation of the
lines and the place of the first character of a line with content. -/
def blockBreaks? (indent : Option Nat) (widest : Nat) (c : Cursor) :
    Option (Text × Nat × Cursor) :=
  let due := match indent with
    | some n => n - c.column
    | none => c.rest.length
  let spaces := ((c.rest.take due).takeWhile (· == ' ')).length
  let place := c.skip spaces
  let widest := max widest place.column
  let inIndent := match indent with
    | some n => decide (place.column < n)
    | none => true
  match _h : place.rest with
  | [] => some ([], widest, place)
  | d :: _ =>
    if inIndent && d == '\t' then none
    else if isBreak d then
      (blockBreaks? indent widest place.skipBreak).map fun (breaks, widest, last) =>
        (breakText d ++ breaks, widest, last)
    else some ([], widest, place)
termination_by c.rest.length
decreasing_by
  have hle : place.rest.length ≤ c.rest.length := by simp [place, Cursor.skip]
  exact Nat.lt_of_lt_of_le (Cursor.length_skipBreak _h) hle

/-- Reads the lines of a block scalar from the first one with content on. `last` is the line break
behind the line before, `breaks` are those of the empty lines since, and `wasIndented` says whether
the line before starts with a space or tab. The result is the text, the line break behind the last
line and those behind it. -/
def blockLines? (literal : Bool) (indent : Nat) (last breaks : Text) (wasIndented : Bool)
    (c : Cursor) : Option (Text × Text × Text × Cursor) :=
  match _h : c.rest with
  | [] => some ([], last, breaks, c)
  | d :: _ =>
    if c.column = indent then
      let isIndented := isGap d
      let glue :=
        if !literal && last == ['\n'] && !wasIndented && !isIndented then
          if breaks = [] then [' '] else []
        else last
      let (line, behind) := c.takeWhile fun e => !isBreak e
      let (last, next) := behind.takeBreak
      match blockBreaks? (some indent) 0 next with
      | none => none
      | some (more, _, place) =>
        if place.rest.length < c.rest.length then
          (blockLines? literal indent last more isIndented place).map
            fun (text, last, rest, place) => (glue ++ breaks ++ line ++ text, last, rest, place)
        else none
    else some ([], last, breaks, c)
termination_by c.rest.length
decreasing_by simpa [_h] using ‹place.rest.length < c.rest.length›

/-- Reads a block scalar at its bar or angle, inside a block with the given indentation. -/
def blockScalar? (literal : Bool) (around : Int) (c : Cursor) : Option (Text × Cursor) :=
  match blockHeader? (c.skip 1) with
  | none => none
  | some (header, behind) =>
    let lineEnd := behind.skipGaps.skipComment
    if !atBreak lineEnd.rest then none
    else
      let first := lineEnd.skipBreak
      let given := header.indent.map fun n => (max around 0).toNat + n
      match blockBreaks? given 0 first with
      | none => none
      | some (breaks, widest, place) =>
        let indent := given.getD (max (max widest (around + 1).toNat) 1)
        (blockLines? literal indent [] breaks false place).map fun (text, last, rest, place) =>
          match header.chomping with
          | .strip => (text, place)
          | .clip => (text ++ last, place)
          | .keep => (text ++ last ++ rest, place)

end DocTemplate.Yaml
