import DocTemplate.Config.Environment
import DocTemplate.Config.OfYaml
import DocTemplate.Settings.OfJson
import DocTemplate.Storage

/-!
# Configuration

A configuration has settings and the paths of variable files. It is layered: the environment lies on
top of a file, and what neither gives has its default. A file that is named has to be there; without
a name a file in the working directory is taken if there is one. Relative paths in it start from its
own directory.
-/

namespace DocTemplate

/-- A configuration. -/
structure Config where
  /-- The settings. -/
  settings : Settings := {}
  /-- The paths of the variable files that all documents use, in order. -/
  variableFiles : List FilePath := []
  deriving DecidableEq, Repr

/-- Why there is no configuration. Paths are texts and the working directory is given, so there are
no failures to write a path as a text or to find out the directory. -/
inductive ConfigError where
  /-- The file that is named is not there. -/
  | notFound (p : FilePath)
  /-- What the layers give is no configuration; which entry is wrong, and why, is not kept. -/
  | invalid
  deriving DecidableEq, Repr

/-- What is said of it. The account of the entry that is wrong, which would stand behind a colon, is
not part of the message. -/
def ConfigError.message : ConfigError → Text
  | notFound p => "config file not found: ".toList ++ p
  | invalid => "failed to deserialize config".toList

namespace Settings

/-- The switches among the entries of a table; nothing if one of them is no truth value. -/
def switchesOfEntries? : List (Text × ConfigTree) → Option (List (Switch × Bool))
  | [] => some []
  | (name, tree) :: rest =>
    match Switch.ofName? name with
    | none => switchesOfEntries? rest
    | some switch =>
      match tree.toBool?, switchesOfEntries? rest with
      | some on, some others => some ((switch, on) :: others)
      | _, _ => none

/-- The switches that a list gives in order. What stands behind the last switch has no meaning. -/
def switchesOfList? (items : List ConfigTree) : Option (List (Switch × Bool)) :=
  (Switch.all.zip items).mapM fun (switch, tree) => tree.toBool?.map fun on => (switch, on)

/-- Settings from a configuration tree. -/
def ofConfigTree? : ConfigTree → Option Settings
  | .table entries => (switchesOfEntries? entries).bind ofSwitches?
  | .list items => (switchesOfList? items).bind ofSwitches?
  | _ => none

end Settings

namespace Config

/-- The paths that a list gives. -/
def pathsOfTree? : ConfigTree → Option (List FilePath)
  | .list items => items.mapM ConfigTree.toText?
  | _ => none

/-- The configuration of a tree; entries that it does not know have no meaning. -/
def ofTree? (tree : ConfigTree) : Option Config :=
  let entry (name : Text) : Option ConfigTree := Entries.get? name tree.entriesOf
  let settings : Option Settings := match entry "liquid".toList with
    | none => some {}
    | some t => Settings.ofConfigTree? t
  let paths : Option (List FilePath) := match entry "vars".toList with
    | none => some []
    | some t => pathsOfTree? t
  match settings, paths with
  | some s, some ps => some ⟨s, ps⟩
  | _, _ => none

/-- The file that is taken if none is named. -/
def defaultFile : FilePath := "undox-liquid.yaml".toList

/-- The extensions that are tried behind the path of a file that is not there. -/
def extensions : List Text := ["yaml".toList, "yml".toList]

/-- Where the file of a path may lie: at the path, or at the path with an extension behind it. -/
def candidates (p : FilePath) : List FilePath :=
  p :: extensions.filterMap (FilePath.addExtension? p)

/-- The content of the first file that there is for a path. -/
def content? (look : FileLookup) (p : FilePath) : Option Text :=
  (candidates p).findSome? fun candidate => (look.read candidate).toOption

/-- The path of the file that is named, or else of the one that is taken without a name. -/
def pathOf (workingDirectory : FilePath) (named : Option FilePath) : FilePath :=
  FilePath.join workingDirectory (named.getD defaultFile)

/-- The table that a file gives; a file that is not there gives an empty one. -/
def fileLayer? (look : FileLookup) (p : FilePath) : Option ConfigTree :=
  match content? look p with
  | none => some (.table [])
  | some content => ConfigTree.ofYamlText? content

/-- Lets relative paths of variable files start from a directory. -/
def relativeTo (c : Config) (directory : FilePath) : Config :=
  { c with variableFiles := c.variableFiles.map (FilePath.join directory) }

/-- Loads a configuration from the file that is named, if one is, and the environment. -/
def load (look : FileLookup) (workingDirectory : FilePath) (environment : List (Text × Text))
    (named : Option FilePath) : Except ConfigError Config :=
  let p := pathOf workingDirectory named
  if named.isSome && !look.leadsAnywhere p then .error (.notFound p)
  else
    let layered := (fileLayer? look p).map fun file =>
      (ConfigTree.layer (.table []) file.entriesOf).layer (ConfigTree.ofEnvironment environment)
    match layered.bind ofTree? with
    | some c => .ok (c.relativeTo ((FilePath.parent p).getD []))
    | none => .error .invalid

end Config

end DocTemplate
