import DocTemplate.Entries
import DocTemplate.Text.Case
import DocTemplate.Value

/-!
# Configuration trees

A configuration is a tree of scalars, lists and tables. A scalar may stand where one of another kind
is asked for: words and numbers for a truth value, and numbers for a text. A number with a fraction
is kept as it is written.
-/

namespace DocTemplate

/-- A tree of a configuration. -/
inductive ConfigTree where
  /-- No value. -/
  | null
  /-- A truth value. -/
  | bool (b : Bool)
  /-- An integer. -/
  | integer (n : Int)
  /-- A number with a fraction, as it is written. -/
  | real (written : Text)
  /-- A text. -/
  | string (t : Text)
  /-- Trees in order. -/
  | list (items : List ConfigTree)
  /-- Trees by name. -/
  | table (entries : List (Text × ConfigTree))
  deriving Inhabited

namespace ConfigTree

/-- The words for infinity, without a sign and in small letters. -/
def infinityWords : List Text := ["inf".toList, "infinity".toList]

/-- The number that a text writes: a decimal number, or a word for infinity or no number. -/
def realOfText? (t : Text) : Option Binary64 :=
  let (negative, unsigned) := Decimal.splitSign t
  let word := unsigned.map Char.toLower
  if infinityWords.contains word then some (.infinity negative)
  else if word = "nan".toList then some .nan
  else (Decimal.ofText? t).map Decimal.toBinary64

/-- The integer of at most 64 bits that a text writes in decimal, perhaps with a sign. -/
def integerOfText? (t : Text) : Option Int :=
  let (negative, unsigned) := Decimal.splitSign t
  match Text.toNat? unsigned with
  | some n =>
    let value := if negative then -(n : Int) else n
    if Number.isSigned64 value then some value else none
  | none => none

/-- The words for true and for false, in small letters. -/
def boolWords : List (Text × Bool) :=
  [("1".toList, true), ("true".toList, true), ("on".toList, true), ("yes".toList, true),
    ("0".toList, false), ("false".toList, false), ("off".toList, false), ("no".toList, false)]

/-- The truth value that a scalar stands for. A number stands for true unless it is zero. -/
def toBool? : ConfigTree → Option Bool
  | bool b => some b
  | integer n => some (n != 0)
  | real written => (realOfText? written).map fun x => !x.isZero
  | string t => boolWords.lookup (Text.lower t)
  | null | list _ | table _ => none

/-- The text that a scalar stands for. -/
def toText? : ConfigTree → Option Text
  | string t => some t
  | bool b => some (Value.toText (.bool b))
  | integer n => some (Text.ofInt n)
  | real written => (realOfText? written).map Value.floatStyle.write
  | null | list _ | table _ => none

/-- The entries of a table; any other tree has none. -/
def entriesOf : ConfigTree → Entries ConfigTree
  | table entries => entries
  | _ => []

/-- The items of a list; any other tree has none. -/
def itemsOf : ConfigTree → List ConfigTree
  | list items => items
  | _ => []

mutual

/-- Puts a tree in place of another one: a table is put on top of what is there, entry by entry. -/
def onto (old : Option ConfigTree) : ConfigTree → ConfigTree
  | table entries => putAll (old.getD (table [])) entries
  | other => other

/-- Puts entries into a tree, one behind the other; a tree that is no table becomes one. -/
def putAll (tree : ConfigTree) : List (Text × ConfigTree) → ConfigTree
  | [] => tree
  | (name, value) :: rest =>
    let entries := tree.entriesOf
    putAll (table (Entries.insert name (onto (Entries.get? name entries) value) entries)) rest

end

/-- Puts a tree into another one under a name. -/
def put (tree : ConfigTree) (name : Text) (value : ConfigTree) : ConfigTree :=
  tree.putAll [(name, value)]

end ConfigTree

end DocTemplate
