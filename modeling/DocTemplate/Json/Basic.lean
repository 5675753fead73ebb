import DocTemplate.Number
import DocTemplate.Text.Basic

/-!
# JSON trees

A JSON document as a tree. The members of an object stand in the order in which they are written;
a name may occur more than once.
-/

namespace DocTemplate

/-- A JSON tree. -/
inductive Json where
  /-- The literal `null`. -/
  | null
  /-- A truth value. -/
  | bool (b : Bool)
  /-- A number. -/
  | number (n : Number)
  /-- A text. -/
  | string (t : Text)
  /-- Trees in order. -/
  | array (items : List Json)
  /-- Trees by name, as they are written. -/
  | object (members : List (Text × Json))
  deriving Inhabited

end DocTemplate
