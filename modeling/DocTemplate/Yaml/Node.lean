import DocTemplate.Yaml.Token

/-!
# YAML nodes

A document as it is written: scalars with their style, sequences and mappings, each with its tag and
its anchor, and aliases. Tags are complete here: the handle of a tag stands for the start of it.
-/

namespace DocTemplate.Yaml

/-- What stands in front of the content of a node. -/
structure Properties where
  /-- The name for the node. -/
  anchor : Option Text := none
  /-- The complete tag. -/
  tag : Option Text := none
  deriving DecidableEq, Repr

/-- A node as it is written. -/
inductive YamlNode where
  /-- A scalar. -/
  | scalar (props : Properties) (text : Text) (style : ScalarStyle)
  /-- The name of another node. -/
  | reference (name : Text)
  /-- Nodes in order. -/
  | sequence (props : Properties) (items : List YamlNode)
  /-- Nodes by key. -/
  | mapping (props : Properties) (entries : List (YamlNode × YamlNode))
  deriving Inhabited

namespace YamlNode

/-- A node that has been left out: an empty scalar without quotes. -/
def omitted (props : Properties) : YamlNode := scalar props [] .plain

/-- What stands in front of the content of a node. -/
def props : YamlNode → Properties
  | scalar p _ _ | sequence p _ | mapping p _ => p
  | reference _ => {}

mutual

/-- A node with the nodes in it, in the order in which they start. -/
def subnodes : YamlNode → List YamlNode
  | scalar p text style => [scalar p text style]
  | reference name => [reference name]
  | sequence p items => sequence p items :: subnodesOfItems items
  | mapping p entries => mapping p entries :: subnodesOfEntries entries

/-- The nodes in items. -/
def subnodesOfItems : List YamlNode → List YamlNode
  | [] => []
  | n :: rest => subnodes n ++ subnodesOfItems rest

/-- The nodes in the keys and values of entries. -/
def subnodesOfEntries : List (YamlNode × YamlNode) → List YamlNode
  | [] => []
  | (key, value) :: rest => subnodes key ++ (subnodes value ++ subnodesOfEntries rest)

end

end YamlNode

/-- What a handle of a tag stands for, by handle. -/
abbrev Handles := List (Text × Text)

/-- The handles that every document knows. -/
def standardHandles : Handles :=
  [(['!'], ['!']), (['!', '!'], "tag:yaml.org,2002:".toList)]

/-- The complete tag; a tag between angles is complete. -/
def TagName.complete? (t : TagName) (handles : Handles) : Option Text :=
  if t.handle = [] then some t.suffix
  else (handles.lookup t.handle).map (· ++ t.suffix)

end DocTemplate.Yaml
