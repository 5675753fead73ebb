import DocTemplate.Json.Basic
import DocTemplate.Variables

/-!
# Values from JSON

A JSON tree becomes a value part by part. Of several members under one name the last one counts.
-/

namespace DocTemplate

mutual

/-- The value of a JSON tree. -/
def Value.ofJson : Json → Value
  | .null => .null
  | .bool b => .bool b
  | .number n => .ofNumber n
  | .string t => .string t
  | .array items => .sequence (Value.ofJsonItems items)
  | .object members => .mapping (Entries.ofList (Value.ofJsonMembers members))

/-- The values of JSON trees in order. -/
def Value.ofJsonItems : List Json → List Value
  | [] => []
  | j :: rest => Value.ofJson j :: Value.ofJsonItems rest

/-- The values of the members of an object, as they are written. -/
def Value.ofJsonMembers : List (Text × Json) → List (Text × Value)
  | [] => []
  | (name, j) :: rest => (name, Value.ofJson j) :: Value.ofJsonMembers rest

end

/-- The variables of a JSON tree. -/
def Variables.ofJson (j : Json) : Except NotAMapping Variables := Variables.ofValue (Value.ofJson j)

end DocTemplate
