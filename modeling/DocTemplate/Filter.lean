import DocTemplate.Entries
import DocTemplate.Text.Case

/-!
# Filters

A filter is a named transformation of text. Filters are registered one behind the other; of several
under one name the latest is found. A chain of filters is applied from left to right and stops at
the first name that nobody has registered.
-/

namespace DocTemplate

/-- A named transformation of text. -/
structure Filter where
  /-- The name that an interpolation applies it by. -/
  name : Text
  /-- What it does. -/
  apply : Text → Text

/-- Filters, the latest first. -/
structure Filters where
  /-- The filters in the order in which they are searched. -/
  latestFirst : List Filter

namespace Filters

/-- No filters. -/
def empty : Filters := ⟨[]⟩

/-- Registers a filter: it hides the earlier ones of its name. -/
def register (fs : Filters) (f : Filter) : Filters := ⟨f :: fs.latestFirst⟩

/-- The latest filter of a name. -/
def find? (fs : Filters) (name : Text) : Option Filter := fs.latestFirst.find? (·.name == name)

/-- The names of the filters, each once and in ascending order. -/
def names (fs : Filters) : List Text :=
  (Entries.ofList (fs.latestFirst.map fun f => (f.name, ()))).map Prod.fst

/-- Applies filters by name from left to right; fails with the first name that is unknown. -/
def applyAll (fs : Filters) (input : Text) : List Text → Except Text Text
  | [] => .ok input
  | name :: rest =>
    match fs.find? name with
    | some f => fs.applyAll (f.apply input) rest
    | none => .error name

/-- The filters that are always there. -/
def standard : Filters :=
  [⟨"capitalize".toList, Text.capitalize⟩, ⟨"length".toList, fun t => Text.ofNat t.length⟩,
    ⟨"upper".toList, Text.upper⟩, ⟨"lower".toList, Text.lower⟩, ⟨"trim".toList, Text.trim⟩,
    ⟨"title".toList, Text.titleCase⟩].foldl register empty

/-- A filter that has just been registered is found under its name, and others stay. -/
@[simp] theorem find?_register (fs : Filters) (f : Filter) (name : Text) :
    (fs.register f).find? name = if f.name = name then some f else fs.find? name := by
  simp only [register, find?, List.find?_cons]
  by_cases h : f.name = name
  · simp [h]
  · simp [h, beq_eq_false_iff_ne.2 h]

end Filters

end DocTemplate
