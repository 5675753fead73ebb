import DocTemplate.Entries
import DocTemplate.Number

/-!
# Values

Variables hold values: scalars, sequences and mappings. A step into a value goes by a key of a
mapping or an index of a sequence; a step that leads nowhere is no error but has no result. Every
value counts as true or false, and every value has a text, which is empty for values with parts.
-/

namespace DocTemplate

/-- A value of a variable. -/
inductive Value where
  /-- No value. -/
  | null
  /-- A truth value. -/
  | bool (b : Bool)
  /-- An integer. -/
  | int (n : Int)
  /-- A number with a fraction. -/
  | float (x : Binary64)
  /-- A text. -/
  | string (t : Text)
  /-- Values in order. -/
  | sequence (items : List Value)
  /-- Values by name. -/
  | mapping (entries : List (Text × Value))
  deriving Inhabited

namespace Value

/-- Numbers are written without a power of ten, and whole numbers without a point. -/
def floatStyle : DecimalStyle := ⟨.up, fun _ => true, false, ['N', 'a', 'N'], ['i', 'n', 'f']⟩

/-- Whether a condition on the value holds: not for nothing, a false truth value, zero, no number
and the empty text. -/
def isTruthy : Value → Bool
  | null => false
  | bool b => b
  | int n => n != 0
  | float x => !x.isZero && !x.isNaN
  | string t => !t.isEmpty
  | sequence _ | mapping _ => true

/-- A condition fails on the values that stand for nothing of their type, and on no others: on no
value, on what is false, on zero of either kind, on what is no number and on the empty text.
Sequences and mappings always count as true, also without any parts. -/
theorem isTruthy_eq_false_iff {v : Value} :
    v.isTruthy = false ↔
      v = null ∨ v = bool false ∨ v = int 0 ∨
        (∃ x, v = float x ∧ (x.isZero = true ∨ x.isNaN = true)) ∨ v = string [] := by
  cases v with
  | null => simp [isTruthy]
  | bool b => simp [isTruthy]
  | int n => simp [isTruthy]
  | float x => cases hzero : x.isZero <;> cases hnan : x.isNaN <;> simp [isTruthy, hzero, hnan]
  | string t => simp [isTruthy]
  | sequence items => simp [isTruthy]
  | mapping entries => simp [isTruthy]

/-- The text that an interpolation of the value gives. -/
def toText : Value → Text
  | null | sequence _ | mapping _ => []
  | bool true => ['t', 'r', 'u', 'e']
  | bool false => ['f', 'a', 'l', 's', 'e']
  | int n => Text.ofInt n
  | float x => floatStyle.write x
  | string t => t

/-- The name of the value's type. -/
def typeName : Value → Text
  | null => "null".toList
  | bool _ => "bool".toList
  | int _ => "int".toList
  | float _ => "float".toList
  | string _ => "string".toList
  | sequence _ => "sequence".toList
  | mapping _ => "mapping".toList

/-- The index that a path segment stands for: ASCII digits, perhaps with a plus sign, for a number
of at most 64 bits. -/
def indexOfText? (segment : Text) : Option Nat :=
  let digits := match segment with
    | '+' :: rest => rest
    | _ => segment
  (Text.toNat? digits).filter (· < Nat.pow 2 64)

/-- One step into a value. -/
def get? (segment : Text) : Value → Option Value
  | mapping entries => Entries.get? segment entries
  | sequence items => (indexOfText? segment).bind fun i => items[i]?
  | _ => none

/-- Steps into a value, one behind the other. -/
def lookup : Value → List Text → Option Value
  | v, [] => some v
  | v, segment :: rest => (v.get? segment).bind (lookup · rest)

/-- The value of a number: an integer of at most 64 bits with a sign stays one. -/
def ofNumber : Number → Value
  | .integer n => if Number.isSigned64 n then int n else float (.ofInt n)
  | .float x => float x

end Value

end DocTemplate
