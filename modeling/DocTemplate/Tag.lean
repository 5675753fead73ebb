import DocTemplate.Settings
import DocTemplate.Text.Blank

/-!
# Tags

A tag is a statement between `{%` and `%}` or an interpolation between two pairs of braces. A
statement is known by its first word; dashes directly inside its delimiters have no meaning.
-/

namespace DocTemplate

/-- The two kinds of delimiters. -/
inductive Delimiter where
  /-- The delimiters of a statement. -/
  | statement
  /-- The delimiters of an interpolation. -/
  | interpolation
  deriving DecidableEq, Repr

namespace Delimiter

/-- The character between the delimiter and its outer brace. -/
def mark : Delimiter → Char
  | statement => '%'
  | interpolation => '{'

/-- The character of the closer in front of its outer brace. -/
def closingMark : Delimiter → Char
  | statement => '%'
  | interpolation => '}'

/-- What opens a tag. -/
def opener (d : Delimiter) : Text := ['{', d.mark]

/-- What closes a tag. -/
def closer (d : Delimiter) : Text := [d.closingMark, '}']

/-- The kind of tag that two characters open, if they open one. -/
def ofOpener? (a b : Char) : Option Delimiter :=
  if a = '{' then
    if b = '%' then some statement else if b = '{' then some interpolation else none
  else none

/-- Two characters open a tag exactly if they are its opener. -/
theorem ofOpener?_eq_some_iff {a b : Char} {d : Delimiter} :
    ofOpener? a b = some d ↔ [a, b] = d.opener := by
  unfold ofOpener? opener
  cases d <;> (split <;> (try split) <;> (try split)) <;> simp_all [mark]

end Delimiter

/-- The words that introduce a statement. -/
inductive Keyword where
  /-- Opens a loop. -/
  | loop
  /-- Opens a condition. -/
  | condition
  /-- Separates the two branches of a condition. -/
  | alternative
  /-- Closes a loop. -/
  | endLoop
  /-- Closes a condition. -/
  | endCondition
  deriving DecidableEq, Repr

namespace Keyword

/-- The keyword as it is written. -/
def toText : Keyword → Text
  | loop => ['f', 'o', 'r']
  | condition => ['i', 'f']
  | alternative => ['e', 'l', 's', 'e']
  | endLoop => ['e', 'n', 'd', 'f', 'o', 'r']
  | endCondition => ['e', 'n', 'd', 'i', 'f']

/-- Every keyword. -/
def all : List Keyword := [loop, condition, alternative, endLoop, endCondition]

/-- The keyword that a word is. -/
def ofText? (word : Text) : Option Keyword := all.find? (·.toText == word)

/-- A word is a keyword exactly if it is written like it. -/
theorem ofText?_eq_some_iff {word : Text} {k : Keyword} :
    ofText? word = some k ↔ word = k.toText := by
  constructor
  · intro h
    have hk := List.find?_some (p := fun k : Keyword => k.toText == word) h
    exact (beq_iff_eq.1 hk).symm
  · rintro rfl
    cases k <;> rfl

end Keyword

/-- The kinds of tags. -/
inductive TagKind where
  /-- A statement with its keyword. -/
  | statement (keyword : Keyword)
  /-- An interpolation. -/
  | interpolation
  deriving DecidableEq, Repr

namespace TagKind

/-- Only statements may have a line of their own. -/
def isStatement : TagKind → Bool
  | statement _ => true
  | interpolation => false

/-- The keyword of a statement, and the opener of an interpolation. -/
def keyword : TagKind → Text
  | statement k => k.toText
  | interpolation => Delimiter.interpolation.opener

end TagKind

namespace Settings

/-- Whether tags of a kind are recognised. -/
def enables (s : Settings) : TagKind → Bool
  | .statement .loop | .statement .endLoop => s.cycles
  | .statement .condition | .statement .alternative | .statement .endCondition => s.conditions
  | .interpolation => s.substitutions

end Settings

/-- What a statement says: the text between its delimiters without the blanks around it, and
without one dash and the blanks behind it on either side. -/
def statementContent (inner : Text) : Text :=
  let trimmed := Text.trim inner
  let undashed := match trimmed with
    | '-' :: rest => rest
    | _ => trimmed
  Text.trim (Text.dropSuffix ['-'] undashed)

end DocTemplate
