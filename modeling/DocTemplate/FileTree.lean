import DocTemplate.Storage

/-!
# File trees

Files and directories by their names from the root on, with a working directory that relative paths
start from. Two dots lead to the directory above. Every step of a path has to start at a directory,
and a path that ends with a slash has to lead to one.
-/

namespace DocTemplate

/-- Files and directories by their names from the root on. -/
structure FileTree where
  /-- The names that lead from the root to the working directory. -/
  workingDirectory : List Text
  /-- What lies below the root, by the names that lead to it; the latest counts. -/
  entries : List (List Text × FileNode)

namespace FileTree

/-- A tree with the working directory and the directories around it. -/
def empty (workingDirectory : List Text) : FileTree :=
  ⟨workingDirectory, (List.range workingDirectory.length).map fun n =>
    (workingDirectory.take (n + 1), .directory)⟩

/-- What lies at a place. -/
def nodeAt (t : FileTree) (place : List Text) : Option FileNode :=
  if place = [] then some .directory else t.entries.lookup place

/-- Puts something at a place. -/
def put (t : FileTree) (place : List Text) (node : FileNode) : FileTree :=
  { t with entries := (place, node) :: t.entries }

/-- The greatest size of a name in bytes. -/
def nameLimit : Nat := 255

/-- The greatest size of a path in bytes. -/
def pathLimit : Nat := 4095

/-- The place that one component leads to. -/
def step (t : FileTree) (place : List Text) (component : Component) :
    Except FileError (List Text) :=
  match component, t.nodeAt place with
  | .root, _ => .ok []
  | _, none => .error .notFound
  | _, some (.file _) => .error .notADirectory
  | .current, some .directory => .ok place
  | .parent, some .directory => .ok place.dropLast
  | .normal name, some .directory =>
    if nameLimit < Text.utf8Size name then .error .nameTooLong else .ok (place ++ [name])

/-- The place that components lead to. -/
def walk (t : FileTree) (components : List Component) : Except FileError (List Text) :=
  components.foldlM t.step t.workingDirectory

/-- Whether a path may only lead to a directory. -/
def namesDirectory (p : FilePath) : Bool :=
  p.getLast? == some '/' || ['/', '.'].isSuffixOf p || p == ['.']

/-- The place that a path leads to. -/
def locate (t : FileTree) (p : FilePath) : Except FileError (List Text) :=
  if p = [] then .error .notFound
  else if p.contains '\x00' then .error .invalidName
  else if pathLimit < Text.utf8Size p then .error .nameTooLong
  else t.walk (FilePath.components p)

/-- What a path leads to. -/
def look (t : FileTree) : FileLookup := fun p =>
  match t.locate p with
  | .error e => .error e
  | .ok place =>
    match t.nodeAt place with
    | none => .error .notFound
    | some .directory => .ok .directory
    | some (.file content) =>
      if namesDirectory p then .error .notADirectory else .ok (.file content)

/-- Makes a directory where nothing is. -/
def makeDirectory (t : FileTree) (components : List Component) : Except FileError FileTree :=
  match t.walk components with
  | .error e => .error e
  | .ok place =>
    match t.nodeAt place with
    | some _ => .error .alreadyExists
    | none => .ok (t.put place .directory)

/-- Whether components lead to a directory. -/
def isDirectory (t : FileTree) (components : List Component) : Bool :=
  match t.walk components with
  | .error _ => false
  | .ok place => t.nodeAt place == some .directory

/-- Makes a directory and those that it lies in, as far as they are not there; given are the
components from the last one on. -/
def makeDirectories (t : FileTree) : List Component → Except FileError FileTree
  | [] => .ok t
  | last :: front =>
    let all := (last :: front).reverse
    let unlessThere (t : FileTree) (e : FileError) : Except FileError FileTree :=
      if t.isDirectory all then .ok t else .error e
    match t.makeDirectory all with
    | .ok made => .ok made
    | .error .notFound =>
      match t.makeDirectories front with
      | .error e => .error e
      | .ok below =>
        match below.makeDirectory all with
        | .ok made => .ok made
        | .error e => unlessThere below e
    | .error e => unlessThere t e

/-- Gives a content to the file at a path; the directory that it lies in has to be there. -/
def writeFile (t : FileTree) (p : FilePath) (content : Text) : Except FileError FileTree :=
  match t.locate p with
  | .error e => .error e
  | .ok place =>
    if t.nodeAt place = some .directory ∨ namesDirectory p then .error .isADirectory
    else .ok (t.put place (.file content))

/-- Gives a content to the file at a path, with the directories that it lies in. -/
def write (t : FileTree) (p : FilePath) (content : Text) : Except FileError FileTree :=
  match FilePath.parent p with
  | none => t.writeFile p content
  | some parent =>
    if parent.contains '\x00' then .error .invalidName
    else (t.makeDirectories (FilePath.components parent).reverse).bind (·.writeFile p content)

instance : Storage FileTree := ⟨write⟩

/-- The files below a place, each with its path from there. -/
def filesBelow (t : FileTree) (place : List Text) : List (FilePath × Text) :=
  (t.entries.map Prod.fst).eraseDups.filterMap fun names =>
    match t.nodeAt names with
    | some (.file content) =>
      if place.isPrefixOf names ∧ place.length < names.length then
        some (FilePath.ofNames (names.drop place.length), content)
      else none
    | _ => none

end FileTree

end DocTemplate
