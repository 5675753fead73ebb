import DocTemplate.Proofs.Entries
import DocTemplate.Value.OfJson
import DocTemplate.Value.OfYaml

/-!
# Variables on top of others

The variables of a data file stand in order. Among variables in order, those on top hide those of
the same names below them and leave the others, and it does not matter which are put together first.
-/

namespace DocTemplate

/-! ## Mappings in order -/

namespace Value

/-- A number gives no mapping. -/
theorem ofNumber_ne_mapping (n : Number) (entries : Entries Value) :
    ofNumber n ≠ .mapping entries := by
  cases n with
  | integer n =>
    rw [ofNumber]
    split <;> nofun
  | float x => nofun

/-- The entries of a mapping from JSON are in order. -/
theorem ascending_of_ofJson {j : Json} {entries : Entries Value}
    (h : ofJson j = .mapping entries) : entries.Ascending := by
  cases j with
  | object members =>
    rw [ofJson, mapping.injEq] at h
    exact h ▸ Entries.ascending_ofList _
  | number n => exact absurd h (ofNumber_ne_mapping n entries)
  | null | bool _ | string _ | array _ => cases h

/-- The entries of a mapping from YAML are in order. -/
theorem ascending_of_ofYaml {entries : Entries Value} :
    ∀ {y : Yaml}, ofYaml y = .mapping entries → entries.Ascending
  | .mapping _, h => by
    rw [ofYaml, mapping.injEq] at h
    exact h ▸ Entries.ascending_ofList _
  | .tagged _ content, h => by
    rw [ofYaml] at h
    exact ascending_of_ofYaml h
  | .number n, h => absurd h (ofNumber_ne_mapping n entries)
  | .null, h | .bool _, h | .string _, h | .sequence _, h => by cases h

end Value

namespace Variables

/-- The variables stand in ascending order of their names. -/
def InOrder (vars : Variables) : Prop := vars.entries.Ascending

/-- No variables are in order. -/
theorem inOrder_empty : empty.InOrder := Entries.ascending_nil

/-- Variables are those of a mapping. -/
theorem eq_mapping_of_ofValue {v : Value} {vars : Variables} (h : ofValue v = .ok vars) :
    v = .mapping vars.entries := by
  cases v with
  | mapping entries =>
    cases h
    rfl
  | null | bool _ | int _ | float _ | string _ | sequence _ => cases h

/-- The variables of a JSON tree are in order. -/
theorem inOrder_of_ofJson {j : Json} {vars : Variables} (h : ofJson j = .ok vars) : vars.InOrder :=
  Value.ascending_of_ofJson (eq_mapping_of_ofValue h)

/-- The variables of a YAML tree are in order. -/
theorem inOrder_of_ofYaml {y : Yaml} {vars : Variables} (h : ofYaml y = .ok vars) :
    vars.InOrder := by
  unfold ofYaml at h
  split at h
  · cases h
    exact inOrder_empty
  · exact Value.ascending_of_ofYaml (eq_mapping_of_ofValue h)

/-! ## Merged variables -/

variable {vars other third : Variables}

/-- Variables on top of variables in order are in order. -/
theorem InOrder.merge (h : vars.InOrder) (other : Variables) : (vars.merge other).InOrder :=
  h.insertAll other.entries

/-- A name has the value on top, or else the one below. -/
theorem InOrder.get?_merge (h : other.InOrder) (vars : Variables) (name : Text) :
    (vars.merge other).get? name = (other.get? name).or (vars.get? name) :=
  Entries.Ascending.get?_insertAll h vars.entries name

/-- Variables that are put on top one after the other may first be put together. -/
theorem merge_assoc (hvars : vars.InOrder) (hother : other.InOrder) (hthird : third.InOrder) :
    (vars.merge other).merge third = vars.merge (other.merge third) :=
  congrArg Variables.mk (Entries.insertAll_assoc hvars hother hthird)

end Variables

end DocTemplate
