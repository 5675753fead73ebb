import DocTemplate.Yaml.Property

/-!
# YAML tokens

The tokens of a YAML text are its marks and scalars, with the start and the end of each block that
indentation makes.
-/

namespace DocTemplate.Yaml

/-- How a scalar is written. -/
inductive ScalarStyle where
  /-- Without quotes. -/
  | plain
  /-- In quotes, or as a block of lines. -/
  | marked
  deriving DecidableEq, Repr

/-- A token of a YAML text. -/
inductive YamlToken where
  /-- A directive. -/
  | directive (d : Directive)
  /-- The mark that starts a document. -/
  | documentStart
  /-- The mark that ends a document. -/
  | documentEnd
  /-- The start of a sequence by indentation. -/
  | blockSequenceStart
  /-- The start of a mapping by indentation. -/
  | blockMappingStart
  /-- The end of a block. -/
  | blockEnd
  /-- An opening bracket. -/
  | flowSequenceStart
  /-- A closing bracket. -/
  | flowSequenceEnd
  /-- An opening brace. -/
  | flowMappingStart
  /-- A closing brace. -/
  | flowMappingEnd
  /-- A dash in front of an item. -/
  | blockEntry
  /-- A comma. -/
  | flowEntry
  /-- The mark of a key, which may have been left out. -/
  | key
  /-- A colon in front of a value. -/
  | value
  /-- A name that stands for another node. -/
  | reference (name : Text)
  /-- A name for the node behind it. -/
  | anchor (name : Text)
  /-- A tag for the node behind it. -/
  | tag (name : TagName)
  /-- A scalar. -/
  | scalar (text : Text) (style : ScalarStyle)
  /-- The end of the text. -/
  | streamEnd
  deriving DecidableEq, Repr

end DocTemplate.Yaml
