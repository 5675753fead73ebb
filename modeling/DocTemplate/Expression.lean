import DocTemplate.Path
import DocTemplate.Text.Blank

/-!
# Expressions in tags

What a tag says is an expression of one of three forms: an interpolation names a path and the
filters for its text, separated by bars; a loop names its variable and the path of the sequence; a
condition names a path.
-/

namespace DocTemplate

/-- What an interpolation shows: a path whose text goes through filters. -/
structure Pipe where
  /-- The path. -/
  path : Path
  /-- The names of the filters in the order in which they apply. -/
  filters : List Text
  deriving DecidableEq

namespace Pipe

/-- Reads a path and filters between bars; blanks around each of them have no meaning. -/
def ofText? (content : Text) : Option Pipe :=
  match (Text.splitOn '|' content).map Text.trim with
  | [] => none
  | path :: filters =>
    if filters.all isIdentifier then (Path.ofText? path).map fun p => ⟨p, filters⟩ else none

end Pipe

/-- What a loop runs over: the name of its variable and the path of the sequence. -/
structure LoopHead where
  /-- The name of the variable. -/
  name : Text
  /-- The path of the sequence. -/
  iterable : Path
  deriving DecidableEq

namespace LoopHead

/-- Reads `for <name> in <path>`, four words. -/
def ofText? (content : Text) : Option LoopHead :=
  match Text.words content with
  | [opening, name, preposition, iterable] =>
    if opening = ['f', 'o', 'r'] ∧ isIdentifier name ∧ preposition = ['i', 'n'] then
      (Path.ofText? iterable).map fun p => ⟨name, p⟩
    else none
  | _ => none

end LoopHead

/-- Reads `if <path>`, two words. -/
def conditionOfText? (content : Text) : Option Path :=
  match Text.words content with
  | [opening, condition] => if opening = ['i', 'f'] then Path.ofText? condition else none
  | _ => none

end DocTemplate
