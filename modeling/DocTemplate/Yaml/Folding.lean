import DocTemplate.Yaml.Cursor

/-!
# Folding of lines

In a scalar that runs over several lines the spaces around a line break are dropped. A single line
break becomes a space, and of several the first one is dropped; the two Unicode separators stay.
-/

namespace DocTemplate.Yaml

/-- The line breaks in a text, by what they count as. -/
def breaksOf : Text → List Text
  | '\r' :: '\n' :: t => ['\n'] :: breaksOf t
  | c :: t => if isBreak c then breakText c :: breaksOf t else breaksOf t
  | [] => []

/-- What a run of spaces, tabs and line breaks between two visible characters becomes. -/
def foldRun (run : Text) : Text :=
  match breaksOf run with
  | [] => run
  | first :: others =>
    if first = ['\n'] then (if others = [] then [' '] else others.flatten)
    else first ++ others.flatten

/-- What a run behind an escaped line break becomes: its line breaks. -/
def foldEscaped (run : Text) : Text := (breaksOf run).flatten

end DocTemplate.Yaml
