import DocTemplate.Yaml.Node

/-!
# Anchors

An alias stands for the node whose anchor had its name when the alias was written, so names that are
given more than once have to be told apart. Anchors and aliases are renamed to numbers; afterwards
an alias leads to the last node that has its number.
-/

namespace DocTemplate.Yaml

/-- Which number an anchor gets. -/
inductive Numbering where
  /-- The number of different names in front of it. -/
  | byNames
  /-- The number of anchors in front of it. -/
  | byAnchors
  deriving DecidableEq, Repr

/-- Renames anchors and aliases to numbers. `known` gives the numbers of names, and `count` is how
many anchors stand in front. An alias has to stand behind an anchor of its name. -/
def numberAnchors (numbering : Numbering) (known : List (Text × Nat)) (count : Nat) :
    List YamlToken → Option (List YamlToken)
  | [] => some []
  | .anchor name :: rest =>
    let n := match numbering with
      | .byNames => known.length
      | .byAnchors => count
    let others := known.filter fun (other, _) => other != name
    (numberAnchors numbering ((name, n) :: others) (count + 1) rest).map
      (.anchor (Text.ofNat n) :: ·)
  | .reference name :: rest =>
    match known.lookup name with
    | some n => (numberAnchors numbering known count rest).map (.reference (Text.ofNat n) :: ·)
    | none => none
  | token :: rest => (numberAnchors numbering known count rest).map (token :: ·)

/-- The nodes with anchors, the latest first, each with its anchor. -/
def YamlNode.anchored (root : YamlNode) : List (Text × YamlNode) :=
  (root.subnodes.filterMap fun n => n.props.anchor.map fun a => (a, n)).reverse

end DocTemplate.Yaml
