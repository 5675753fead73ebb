import DocTemplate.Text.Basic

/-!
# Locations

A location is a line and a column, both counted from one; columns count characters. Reading a
character moves the location on, so the location of a place in a source is what the text in front
of it leads to. A place may also be given as an offset in UTF-8 bytes, which the table of line
starts turns into a location.
-/

namespace DocTemplate

/-- A place in a source. -/
structure Location where
  /-- The line, counted from one. -/
  line : Nat
  /-- The column in characters, counted from one. -/
  column : Nat
  deriving DecidableEq, Repr

namespace Location

/-- Where a source starts. -/
def start : Location := ⟨1, 1⟩

/-- The location behind one character: a line feed leads to the start of the next line. -/
def advance (l : Location) (c : Char) : Location :=
  if c = '\n' then ⟨l.line + 1, 1⟩ else ⟨l.line, l.column + 1⟩

/-- The location behind a text that starts at `l`. -/
def after (l : Location) (t : Text) : Location := t.foldl advance l

@[simp] theorem after_nil (l : Location) : l.after [] = l := rfl

@[simp] theorem after_cons (l : Location) (c : Char) (t : Text) :
    l.after (c :: t) = (l.advance c).after t := rfl

/-- Locations follow texts piece by piece. -/
@[simp] theorem after_append (l : Location) (s t : Text) :
    l.after (s ++ t) = (l.after s).after t := List.foldl_append

/-- A location is written as its line, a colon and its column. -/
def toText (l : Location) : Text := Text.ofNat l.line ++ ':' :: Text.ofNat l.column

end Location

namespace Text

/-- The text in the first `n` bytes; nothing if there are fewer, or if the last of them is not the
end of a character. -/
def takeBytes : Nat → Text → Option Text
  | 0, _ => some []
  | _ + 1, [] => none
  | n + 1, c :: t =>
    if c.utf8Size ≤ n + 1 then (takeBytes (n + 1 - c.utf8Size) t).map (c :: ·) else none

/-- The text behind the first `n` bytes; nothing if there are fewer, or if the last of them is not
the end of a character. -/
def dropBytes : Nat → Text → Option Text
  | 0, t => some t
  | _ + 1, [] => none
  | n + 1, c :: t => if c.utf8Size ≤ n + 1 then dropBytes (n + 1 - c.utf8Size) t else none

/-- The text between two byte offsets. -/
def slice (first last : Nat) (t : Text) : Option Text := (takeBytes last t).bind (dropBytes first)

/-- The byte offsets at which the given lines start if the first of them starts at `offset`. -/
def lineStartsFrom (offset : Nat) : List Text → List Nat
  | [] => []
  | line :: rest => offset :: lineStartsFrom (offset + utf8Size line + 1) rest

/-- The byte offset at which each line starts, in order. -/
def lineStarts (t : Text) : List Nat := lineStartsFrom 0 (lines t)

/-- The line that holds a byte offset, counted from zero; an offset behind the end is on the last
line. -/
def lineIndex (t : Text) (offset : Nat) : Nat := ((lineStarts t).takeWhile (· ≤ offset)).length - 1

/-- The location of a byte offset. The column is one if the offset lies behind the end or inside a
character. -/
def locate (t : Text) (offset : Nat) : Location :=
  let line := lineIndex t offset
  match slice ((lineStarts t).getD line 0) offset t with
  | some before => ⟨line + 1, before.length + 1⟩
  | none => ⟨line + 1, 1⟩

end Text

end DocTemplate
