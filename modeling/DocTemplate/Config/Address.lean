import DocTemplate.Config.Tree

/-!
# Addresses in a configuration

An address leads into a configuration: names with dots between them, each with indices in brackets
behind it. A tree may be put at any address; tables and lists on the way are made where there are
none. An index below zero counts from the end.
-/

namespace DocTemplate

/-- A step of an address. -/
inductive AddressStep where
  /-- An entry of a table. -/
  | name (name : Text)
  /-- An item of a list. -/
  | index (i : Int)
  deriving DecidableEq, Repr

namespace AddressStep

/-- The characters of names in addresses. -/
def isNameChar (c : Char) : Bool := c.isAlphanum || c == '_' || c == '-'

/-- The step of a text that starts behind an opening bracket. -/
def ofBracket? (t : Text) : Option AddressStep :=
  if t.getLast? = some ']' then (ConfigTree.integerOfText? t.dropLast).map index else none

/-- The steps of a part of an address that has no dot. -/
def ofPart? (t : Text) : Option (List AddressStep) :=
  match Text.splitOn '[' t with
  | [] => none
  | first :: brackets =>
    if first ≠ [] ∧ first.all isNameChar then
      (brackets.mapM ofBracket?).map (AddressStep.name first :: ·)
    else none

/-- The address that a text writes; a text that writes none is a name as a whole. -/
def ofText (t : Text) : List AddressStep :=
  match (Text.splitOn '.' t).mapM ofPart? with
  | some parts => parts.flatten
  | none => [name t]

end AddressStep

namespace ConfigTree

/-- Changes an item of a list; items that are missing at either end are added without a value. -/
def modifyItem (items : List ConfigTree) (i : Int) (change : ConfigTree → ConfigTree) :
    List ConfigTree :=
  let size : Int := items.length
  let front := if i < 0 then (-i - size).toNat else 0
  let place := if i < 0 then (size + i).toNat else i.toNat
  let back := (place + 1 - size).toNat
  (List.replicate front null ++ items ++ List.replicate back null).modify place change

/-- Puts a tree at the place that steps lead to. Behind a name it is put on top of what is there. -/
def putAt (value : ConfigTree) : ConfigTree → List AddressStep → ConfigTree
  | _, [] => value
  | tree, [.name n] => tree.put n value
  | tree, .name n :: rest =>
    let entries := tree.entriesOf
    table (Entries.insert n (putAt value ((Entries.get? n entries).getD null) rest) entries)
  | tree, .index i :: rest => list (modifyItem tree.itemsOf i fun item => putAt value item rest)

end ConfigTree

end DocTemplate
