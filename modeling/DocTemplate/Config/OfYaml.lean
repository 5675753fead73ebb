import DocTemplate.Config.Tree
import DocTemplate.Yaml.Anchor
import DocTemplate.Yaml.Layout
import DocTemplate.Yaml.Node.OfTokens
import DocTemplate.Yaml.Schema

/-!
# Configurations from YAML

A configuration file holds a mapping, or nothing. Scalars without quotes and tags are no value,
truth values in small letters, integers of at most 64 bits in base eight, ten or sixteen, numbers
with a fraction, or else texts. The keys of a mapping are scalars and differ from each other. An
alias stands for a node that is complete, and for no value as long as its node is not.
-/

namespace DocTemplate

namespace ConfigTree

open Yaml (YamlNode ScalarStyle)

/-- The integer that a text writes: in base sixteen or eight behind a mark, and in base ten. A sign
stands behind the mark, and two plus signs count as one. -/
def markedIntegerOfText? (t : Text) : Option Int :=
  let based (base : Nat) (t : Text) : Option Int :=
    let (negative, digits) := Decimal.splitSign t
    match Yaml.naturalOfDigits? base digits with
    | some n =>
      let value := if negative then -(n : Int) else n
      if Number.isSigned64 value then some value else none
    | none => none
  match t with
  | '0' :: 'x' :: rest => based 16 rest
  | '0' :: 'o' :: rest => based 8 rest
  | '+' :: rest => integerOfText? rest
  | _ => integerOfText? t

/-- The tree of a scalar without quotes and tags; a word for infinity or for no number has none. -/
def ofPlain? (t : Text) : Option ConfigTree :=
  let infinities : List Text := [".inf".toList, ".Inf".toList, ".INF".toList]
  let nans : List Text := [".nan".toList, ".NaN".toList, ".NAN".toList]
  let unsigned := match t with
    | '-' :: rest => rest
    | '+' :: rest => rest
    | _ => t
  if t = [] ∨ t = ['~'] ∨ t = "null".toList then some null
  else if t = "true".toList then some (bool true)
  else if t = "false".toList then some (bool false)
  else match markedIntegerOfText? t with
    | some n => some (integer n)
    | none =>
      if infinities.contains unsigned || nans.contains t then none
      else if t.any Char.isDigit && (realOfText? t).isSome then some (real t)
      else some (string t)

/-- The tree of a scalar behind the tag of a simple type, which has no value if it does not fit; the
name is what the tag ends with. -/
def ofTyped? (name t : Text) : Option ConfigTree :=
  if name = "bool".toList then
    some (if t = "true".toList then bool true else if t = "false".toList then bool false else null)
  else if name = "int".toList then some (((integerOfText? t).map integer).getD null)
  else if name = "float".toList then
    match ofPlain? t with
    | none => none
    | some _ => some (if t.any Char.isDigit && (realOfText? t).isSome then real t else null)
  else if name = "null".toList then some null
  else some (string t)

/-- The tree of a scalar. -/
def ofScalar? (tag : Option Text) (t : Text) (style : ScalarStyle) : Option ConfigTree :=
  let typed := "tag:yaml.org,2002:".toList
  match style, tag with
  | .marked, _ => some (string t)
  | .plain, none => ofPlain? t
  | .plain, some tag =>
    if typed.isPrefixOf tag then ofTyped? (tag.drop typed.length) t else some (string t)

/-- The name that a key becomes. -/
def keyName? : ConfigTree → Option Text
  | string t => some t
  | integer n => some (Text.ofInt n)
  | bool b => some (Value.toText (.bool b))
  | real written => some written
  | null | list _ | table _ => none

/-- Whether two keys are the same. -/
def sameKey : ConfigTree → ConfigTree → Bool
  | string s, string t => s == t
  | integer m, integer n => m == n
  | bool b, bool c => b == c
  | real s, real t => s == t
  | _, _ => false

/-- A table of entries; nothing if a key has no name or occurs twice. -/
def ofEntries? (entries : List (ConfigTree × ConfigTree)) : Option ConfigTree :=
  let rec isDistinct : List (ConfigTree × ConfigTree) → Bool
    | [] => true
    | (key, _) :: rest => !(rest.any fun (k, _) => sameKey key k) && isDistinct rest
  if isDistinct entries then
    (entries.mapM fun e => (keyName? e.1).map fun name => (name, e.2)).map fun named =>
      table (Entries.ofList named)
  else none

/-- The trees of complete nodes, by anchor. -/
abbrev Anchored := List (Text × ConfigTree)

/-- Keeps the tree of a node under its anchor. -/
def keep (p : Yaml.Properties) (tree : ConfigTree) : StateT Anchored Option ConfigTree := do
  match p.anchor with
  | some name => modify ((name, tree) :: ·)
  | none => pure ()
  return tree

mutual

/-- The tree of a node. -/
def ofNode? : YamlNode → StateT Anchored Option ConfigTree
  | .reference name => do return ((← get).lookup name).getD null
  | .scalar p t style =>
    match ofScalar? p.tag t style with
    | some tree => keep p tree
    | none => failure
  | .sequence p items => do keep p (.list (← ofNodes? items))
  | .mapping p entries => do
    match ofEntries? (← ofNodeEntries? entries) with
    | some tree => keep p tree
    | none => failure

/-- The trees of nodes in order. -/
def ofNodes? : List YamlNode → StateT Anchored Option (List ConfigTree)
  | [] => return []
  | n :: rest => do
    let tree ← ofNode? n
    return tree :: (← ofNodes? rest)

/-- The trees of keys and values in order. -/
def ofNodeEntries? :
    List (YamlNode × YamlNode) → StateT Anchored Option (List (ConfigTree × ConfigTree))
  | [] => return []
  | (key, value) :: rest => do
    let k ← ofNode? key
    let v ← ofNode? value
    return (k, v) :: (← ofNodeEntries? rest)

end

/-- Reads the table of a configuration file. A byte order mark in front of it has no meaning. -/
def ofYamlText? (t : Text) : Option ConfigTree := do
  let unmarked := match t with
    | '\uFEFF' :: rest => rest
    | _ => t
  let tokens ← Yaml.numberAnchors .byAnchors [] 0 (← Yaml.tokens? unmarked)
  match ← YamlNode.ofTokens? tokens with
  | none => some (table [])
  | some root =>
    match (← ofNode? root []).1 with
    | table entries => some (table entries)
    | _ => none

end ConfigTree

end DocTemplate
