import DocTemplate.Json.Basic
import DocTemplate.Settings

/-!
# Settings from JSON

Settings are an object of switches by name, or an array of switches in a fixed order. Switches that
are missing have their defaults, and members that name no switch are ignored.
-/

namespace DocTemplate

/-- The switches. -/
inductive Switch where
  /-- Tags in fenced code. -/
  | conditionsInCode
  /-- Loops. -/
  | cycles
  /-- Conditions. -/
  | conditions
  /-- Interpolations. -/
  | substitutions
  /-- The word that escapes an interpolation. -/
  | keepNotVar
  deriving DecidableEq, Repr

namespace Switch

/-- Every switch, in the order that an array gives them. -/
def all : List Switch := [conditionsInCode, cycles, conditions, substitutions, keepNotVar]

/-- The names of a switch. -/
def names : Switch → List Text
  | conditionsInCode => ["conditions_in_code".toList, "conditionsInCode".toList]
  | cycles => ["cycles".toList]
  | conditions => ["conditions".toList]
  | substitutions => ["substitutions".toList]
  | keepNotVar => ["keep_not_var".toList, "keepNotVar".toList]

/-- The switch of a name. -/
def ofName? (name : Text) : Option Switch := all.find? (·.names.contains name)

/-- Sets a switch. -/
def set (switch : Switch) (on : Bool) (s : Settings) : Settings :=
  match switch with
  | conditionsInCode => { s with conditionsInCode := on }
  | cycles => { s with cycles := on }
  | conditions => { s with conditions := on }
  | substitutions => { s with substitutions := on }
  | keepNotVar => { s with keepNotVar := on }

end Switch

namespace Settings

/-- Sets switches one behind the other; a switch may be set once. -/
def setAll? (s : Settings) : List Switch → List (Switch × Bool) → Option Settings
  | _, [] => some s
  | seen, (switch, on) :: rest =>
    if seen.contains switch then none else setAll? (switch.set on s) (switch :: seen) rest

/-- Settings from the switches that are given by name or by place. -/
def ofSwitches? (given : List (Switch × Bool)) : Option Settings := setAll? {} [] given

/-- The switches among the members of an object; nothing if one of them is no truth value. -/
def switchesOfMembers? : List (Text × Json) → Option (List (Switch × Bool))
  | [] => some []
  | (name, j) :: rest =>
    match Switch.ofName? name, j with
    | none, _ => switchesOfMembers? rest
    | some switch, .bool on => (switchesOfMembers? rest).map ((switch, on) :: ·)
    | some _, _ => none

/-- The switches that an array gives in order; nothing if one of the items is no truth value, or if
there are more items than switches. -/
def switchesOfItems? : List Switch → List Json → Option (List (Switch × Bool))
  | _, [] => some []
  | switch :: switches, .bool on :: rest => (switchesOfItems? switches rest).map ((switch, on) :: ·)
  | _, _ :: _ => none

/-- Settings from a JSON tree. -/
def ofJson? : Json → Option Settings
  | .object members => (switchesOfMembers? members).bind ofSwitches?
  | .array items => (switchesOfItems? Switch.all items).bind ofSwitches?
  | _ => none

end Settings

end DocTemplate
