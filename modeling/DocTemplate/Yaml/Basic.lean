import DocTemplate.Number
import DocTemplate.Text.Basic

/-!
# YAML trees

A YAML document as a tree. The entries of a mapping stand in the order in which they are written,
and any tree may be a key. Trees are the same if they have the same shape and the same scalars; the
order of the entries of a mapping does not matter, numbers of different kinds differ, all numbers
that are no numbers are the same, and so are the two zeros.
-/

namespace DocTemplate

/-- A YAML tree. -/
inductive Yaml where
  /-- No value. -/
  | null
  /-- A truth value. -/
  | bool (b : Bool)
  /-- A number. -/
  | number (n : Number)
  /-- A text. -/
  | string (t : Text)
  /-- Trees in order. -/
  | sequence (items : List Yaml)
  /-- Trees by key. -/
  | mapping (entries : List (Yaml × Yaml))
  /-- A tree with a tag. -/
  | tagged (tag : Text) (content : Yaml)
  deriving Inhabited

/-- Whether two numbers are the same. -/
def Number.same : Number → Number → Bool
  | .integer m, .integer n => m == n
  | .float x, .float y => (x.isNaN && y.isNaN) || (x.isZero && y.isZero) || x == y
  | _, _ => false

namespace Yaml

mutual

/-- Whether two trees are the same. -/
def same : Yaml → Yaml → Bool
  | null, null => true
  | bool b, bool c => b == c
  | number m, number n => m.same n
  | string s, string t => s == t
  | sequence xs, sequence ys => sameItems xs ys
  | mapping xs, mapping ys => xs.length == ys.length && sameEntries xs ys
  | tagged s x, tagged t y => s == t && same x y
  | _, _ => false

/-- Whether two lists hold the same trees in the same order. -/
def sameItems : List Yaml → List Yaml → Bool
  | [], [] => true
  | x :: xs, y :: ys => same x y && sameItems xs ys
  | _, _ => false

/-- Whether all entries of the first list are in the second one. -/
def sameEntries : List (Yaml × Yaml) → List (Yaml × Yaml) → Bool
  | [], _ => true
  | (key, value) :: rest, ys =>
    (ys.any fun (k, v) => same key k && same value v) && sameEntries rest ys

end

/-- Puts a value under a key: an equal key keeps its place and gets the new value. -/
def putEntry (key value : Yaml) : List (Yaml × Yaml) → List (Yaml × Yaml)
  | [] => [(key, value)]
  | (k, v) :: rest =>
    if same key k then (k, value) :: rest else (k, v) :: putEntry key value rest

/-- A mapping of entries that are put one behind the other. -/
def ofEntries (entries : List (Yaml × Yaml)) : Yaml :=
  mapping (entries.foldl (fun es (key, value) => putEntry key value es) [])

/-- The tree without the tags around it. -/
def untag : Yaml → Yaml
  | tagged _ content => untag content
  | y => y

end Yaml

end DocTemplate
