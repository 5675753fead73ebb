import DocTemplate.Variables
import DocTemplate.Yaml.Basic

/-!
# Values from YAML

A YAML tree becomes a value part by part; tags are dropped. A key becomes a name if it is a text, a
truth value or a number, and entries under other keys are left out, since no path leads to them. Of
several entries whose keys become the same name the last one counts.
-/

namespace DocTemplate

namespace Yaml

/-- How a float is written as a key: with a point, and with a power of ten if it is very large or
very small. -/
def floatStyle : DecimalStyle :=
  ⟨.even, fun point => -5 < point && point ≤ 16, true, ['.', 'n', 'a', 'n'], ['.', 'i', 'n', 'f']⟩

/-- The name that a key becomes. -/
def keyName? : Yaml → Option Text
  | string t => some t
  | bool true => some ['t', 'r', 'u', 'e']
  | bool false => some ['f', 'a', 'l', 's', 'e']
  | number (.integer n) => some (Text.ofInt n)
  | number (.float x) => some (floatStyle.write x)
  | null | sequence _ | mapping _ | tagged _ _ => none

end Yaml

mutual

/-- The value of a YAML tree. -/
def Value.ofYaml : Yaml → Value
  | .null => .null
  | .bool b => .bool b
  | .number n => .ofNumber n
  | .string t => .string t
  | .sequence items => .sequence (Value.ofYamlItems items)
  | .mapping entries => .mapping (Entries.ofList (Value.ofYamlEntries entries))
  | .tagged _ content => Value.ofYaml content

/-- The values of YAML trees in order. -/
def Value.ofYamlItems : List Yaml → List Value
  | [] => []
  | y :: rest => Value.ofYaml y :: Value.ofYamlItems rest

/-- The values of the entries of a mapping whose keys become names. -/
def Value.ofYamlEntries : List (Yaml × Yaml) → List (Text × Value)
  | [] => []
  | (key, y) :: rest =>
    match key.keyName? with
    | some name => (name, Value.ofYaml y) :: Value.ofYamlEntries rest
    | none => Value.ofYamlEntries rest

end

/-- The variables of a YAML tree; a document without a value has none. -/
def Variables.ofYaml (y : Yaml) : Except NotAMapping Variables :=
  match y.untag with
  | .null => .ok .empty
  | _ => Variables.ofValue (Value.ofYaml y)

end DocTemplate
