import DocTemplate.Value

/-!
# Variables

The variables of a rendering are values by name. A set of variables may be put on top of another
one: whole values replace each other, they are never merged.
-/

namespace DocTemplate

/-- Values by name, at the root of every path. -/
structure Variables where
  /-- The values in ascending order of their names. -/
  entries : Entries Value

/-- A value that was to be a set of variables but is no mapping. -/
structure NotAMapping where
  /-- The name of its type. -/
  found : Text
  deriving DecidableEq, Repr

/-- What is said of a value that is no mapping. -/
def NotAMapping.message (e : NotAMapping) : Text :=
  "variables must be a mapping at the top level, found ".toList ++ e.found

namespace Variables

/-- No variables. -/
def empty : Variables := ⟨[]⟩

/-- The value of a variable. -/
def get? (vars : Variables) (name : Text) : Option Value := Entries.get? name vars.entries

/-- Gives a value to a variable. -/
def insert (vars : Variables) (name : Text) (value : Value) : Variables :=
  ⟨Entries.insert name value vars.entries⟩

/-- Puts other variables on top. -/
def merge (vars other : Variables) : Variables := ⟨Entries.insertAll vars.entries other.entries⟩

/-- The number of variables. -/
def size (vars : Variables) : Nat := vars.entries.length

/-- The variables that a value holds. -/
def ofValue : Value → Except NotAMapping Variables
  | .mapping entries => .ok ⟨entries⟩
  | other => .error ⟨other.typeName⟩

/-- A variable has the value that it was given last. -/
@[simp] theorem get?_insert (vars : Variables) (name other : Text) (value : Value) :
    (vars.insert name value).get? other = if name = other then some value else vars.get? other :=
  Entries.get?_insert name other value vars.entries

end Variables

end DocTemplate
