import DocTemplate.Yaml.Quoted

/-!
# Plain scalars

A scalar without quotes ends in front of a colon or a comment, which have to be set off by spaces,
in front of a document marker, and in front of a line that is not indented enough. Inside brackets
and braces it ends also at a comma, a bracket or a brace.
-/

namespace DocTemplate.Yaml

/-- The characters that end a plain scalar inside brackets and braces. -/
def isFlowMark (c : Char) : Bool := c == ',' || c == '[' || c == ']' || c == '{' || c == '}'

/-- Reads the visible characters of a plain scalar up to the next space, tab or line break, or to
its end. Inside brackets and braces a colon must not stand in front of one of their marks. -/
def plainWord? (inFlow : Bool) : Text → Option Text
  | [] => some []
  | c :: t =>
    if isSeparator c then some []
    else if inFlow && c == ':' && (match t with
        | d :: _ => isFlowMark d || d == '?'
        | [] => false) then none
    else if (c == ':' && atSeparator t) || (inFlow && isFlowMark c) then some []
    else (plainWord? inFlow t).map (c :: ·)

/-- Whether a tab stands where the indentation of a line is due. -/
def hasTabInIndent (indent : Int) (column : Nat) : Text → Bool
  | [] => false
  | c :: t =>
    if isBreak c then hasTabInIndent indent 0 t
    else (c == '\t' && decide ((column : Int) < indent)) || hasTabInIndent indent (column + 1) t

/-- The part of a run of spaces, tabs and line breaks from its first line break on. -/
def fromFirstBreak (run : Text) : Text := run.dropWhile fun c => !isBreak c

/-- Reads a plain scalar, or what is left of it: its text, whether a line break follows it, and the
place of the next token or comment. `run` is what stands between it and what has been read of it. -/
def plainRest? (inFlow : Bool) (indent : Int) (run : Text) (c : Cursor) :
    Option (Text × Bool × Cursor) :=
  let broken := run.any isBreak
  if (c.column == 0 && atDocumentMarker c.rest) || c.rest.head? == some '#' then
    some ([], broken, c)
  else
    match plainWord? inFlow c.rest with
    | none => none
    | some [] => some ([], broken, c)
    | some (d :: word) =>
      let behind := c.skip (word.length + 1)
      let next := behind.rest.takeWhile isSeparator
      let place := behind.skipSeparators
      let text := foldRun run ++ d :: word
      let nextBroken := next.any isBreak
      if next = [] then some (text, false, behind)
      else if hasTabInIndent indent 0 ((fromFirstBreak next).drop 1) then none
      else if !inFlow && decide ((place.column : Int) < indent) then some (text, nextBroken, place)
      else if place.rest.length < c.rest.length then
        (plainRest? inFlow indent next place).map fun (more, b, last) => (text ++ more, b, last)
      else none
termination_by c.rest.length

/-- Reads a plain scalar; `indent` is the least indentation of its lines. -/
def plainScalar? (inFlow : Bool) (indent : Int) (c : Cursor) : Option (Text × Bool × Cursor) :=
  plainRest? inFlow indent [] c

end DocTemplate.Yaml
