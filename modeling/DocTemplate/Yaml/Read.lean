import DocTemplate.Yaml.Anchor
import DocTemplate.Yaml.Layout
import DocTemplate.Yaml.Node.OfTokens
import DocTemplate.Yaml.Schema

/-!
# YAML trees from text

A text holds one document, or none, which is no value. Aliases are replaced by what they stand for.
Sequences and mappings may be nested 128 deep, also through aliases, and the aliases that are
followed must not outnumber the parts of the document a hundred times. No mapping has the same key
twice.
-/

namespace DocTemplate

namespace Yaml

/-- How deep sequences and mappings may be nested. -/
def depthLimit : Nat := 128

/-- How many parts a document has: one for a scalar or an alias, and two for what has a start and an
end. -/
def YamlNode.partCount (root : YamlNode) : Nat :=
  root.subnodes.foldl (fun count node => count + match node with
    | .scalar _ _ _ | .reference _ => 1
    | .sequence _ _ | .mapping _ _ => 2) 0

/-- Puts a local tag around a tree. -/
def withTag (tag : Option Text) (content : Yaml) : Yaml :=
  match tag with
  | some ['!'] => .tagged ['!'] content
  | some ('!' :: name) => .tagged name content
  | _ => content

/-- Whether no two entries have the same key. -/
def hasDistinctKeys : List (Yaml × Yaml) → Bool
  | [] => true
  | (key, _) :: rest => !(rest.any fun (k, _) => same key k) && hasDistinctKeys rest

/-- The meaning of a scalar. -/
def ofScalar? (tag : Option Text) (t : Text) (style : ScalarStyle) : Option Yaml :=
  let untyped := if style = .plain then ofPlain? t else some (.string t)
  match tag with
  | none | some ('!' :: _) => untyped.map (withTag tag)
  | some other => ofTagged? other t

/-- The meaning of a node, with a count of the aliases that may still be followed. -/
def ofNode? (anchored : List (Text × YamlNode)) : Nat → YamlNode → StateT Nat Option Yaml
  | depth, node => do
    let target ← match node with
      | .reference name =>
        match ← get with
        | 0 => failure
        | left + 1 =>
          set left
          (anchored.lookup name : Option YamlNode)
      | other => pure other
    match target, depth with
    | .scalar p t style, _ => (ofScalar? p.tag t style : Option Yaml)
    | .reference _, _ => failure
    | .sequence p items, depth + 1 =>
      let ys ← items.mapM (ofNode? anchored depth)
      return withTag p.tag (.sequence ys)
    | .mapping p entries, depth + 1 =>
      let ys ← entries.mapM fun (key, value) => do
        return (← ofNode? anchored depth key, ← ofNode? anchored depth value)
      if hasDistinctKeys ys then return withTag p.tag (.mapping ys) else failure
    | _, 0 => failure

/-- The tree of a document. -/
def ofRoot? (root : YamlNode) : Option Yaml :=
  (ofNode? root.anchored depthLimit root (100 * root.partCount)).map Prod.fst

/-- Reads a tree. -/
def ofText? (t : Text) : Option Yaml := do
  let tokens ← numberAnchors .byNames [] 0 (← tokens? t)
  match ← YamlNode.ofTokens? tokens with
  | some root => ofRoot? root
  | none => some .null

end Yaml

end DocTemplate
