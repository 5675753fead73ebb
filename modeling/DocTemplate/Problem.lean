import DocTemplate.Tag
import DocTemplate.Location

/-!
# What may be wrong with a document

A document fails because an opener has no closer, because a statement does not fit into the blocks
around it, or because an interpolation names a filter that nobody has registered. Every failure is
reported with the place and the tag it is about.
-/

namespace DocTemplate

/-- Why a statement does not fit. -/
inductive Problem where
  /-- No loop is open where one is closed. -/
  | unmatchedEndLoop
  /-- No condition is open where one is closed. -/
  | unmatchedEndCondition
  /-- No condition is open where an alternative starts. -/
  | unmatchedAlternative
  /-- The condition has an alternative already. -/
  | duplicateAlternative
  /-- A loop is open at the end of the document. -/
  | unclosedLoop
  /-- A condition is open at the end of the document. -/
  | unclosedCondition
  /-- The statement does not have the form that its keyword asks for. -/
  | malformed (keyword : Keyword)
  deriving DecidableEq, Repr

/-- The form of a statement. -/
def Keyword.form : Keyword → Text
  | .loop => "for <name> in <path>".toList
  | .condition => "if <path>".toList
  | k => k.toText

/-- What is said about a problem. -/
def Problem.message : Problem → Text
  | unmatchedEndLoop => "`endfor` without an open `for`".toList
  | unmatchedEndCondition => "`endif` without an open `if`".toList
  | unmatchedAlternative => "`else` without an open `if`".toList
  | duplicateAlternative => "second `else` in the same `if`".toList
  | unclosedLoop => "`for` is never closed by `endfor`".toList
  | unclosedCondition => "`if` is never closed by `endif`".toList
  | malformed k =>
    "malformed `".toList ++ k.toText ++ "` tag, expected `".toList ++ k.form ++ "`".toList

/-- Why a document fails. -/
inductive Cause where
  /-- An opener has no closer. -/
  | unterminated (delimiter : Delimiter) (excerpt : Text)
  /-- A statement does not fit. -/
  | misplaced (tag : Text) (problem : Problem)
  /-- An interpolation names a filter that is not among the available ones. -/
  | unknownFilter (name tag : Text) (available : List Text)
  deriving DecidableEq, Repr

/-- A failure of a document. -/
structure Failure where
  /-- The place. -/
  location : Location
  /-- What is wrong there. -/
  cause : Cause
  deriving DecidableEq, Repr

/-- What stands for a document without a name. -/
def unnamedOrigin : Text := "<input>".toList

/-- The name of a document in messages. -/
def originLabel (origin : Text) : Text := if origin = [] then unnamedOrigin else origin

/-- What is said about a cause. -/
def Cause.message : Cause → Text
  | unterminated d excerpt =>
    "unterminated `".toList ++ d.opener ++ "` (no matching `".toList ++ d.closer ++
      "`) near `".toList ++ excerpt ++ "`".toList
  | misplaced tag problem => problem.message ++ ": `".toList ++ tag ++ "`".toList
  | unknownFilter name tag available =>
    "unknown filter `".toList ++ name ++ "` in `".toList ++ tag ++ "` (available: ".toList ++
      [',', ' '].intercalate available ++ ")".toList

/-- What is said about a failure of the document of a name. -/
def Failure.message (origin : Text) (f : Failure) : Text :=
  originLabel origin ++ ':' :: f.location.toText ++ ": ".toList ++ f.cause.message

end DocTemplate
