import DocTemplate.Text.Basic

/-!
# File paths

A path is a text with slashes. Its components are what stands between them: repeated and trailing
slashes have no meaning, and a single dot counts only at the start of a relative path. Joining keeps
the two texts as they are written; what a path names is decided by its components.
-/

namespace DocTemplate

/-- A component of a path. -/
inductive Component where
  /-- The root, in front of an absolute path. -/
  | root
  /-- A dot at the start of a relative path. -/
  | current
  /-- Two dots. -/
  | parent
  /-- A name. -/
  | normal (name : Text)
  deriving DecidableEq, Repr

/-- A path as it is written. -/
abbrev FilePath := Text

namespace FilePath

/-- Whether a path starts at the root. -/
def isAbsolute (p : FilePath) : Bool := p.head? == some '/'

/-- The component that a piece of a path is; a dot is none. -/
def component? (piece : Text) : Option Component :=
  if piece = [] ∨ piece = ['.'] then none
  else if piece = ['.', '.'] then some .parent
  else some (.normal piece)

/-- The components of a path. -/
def components (p : FilePath) : List Component :=
  let pieces := Text.splitOn '/' p
  let front :=
    if isAbsolute p then [.root] else if pieces.head? = some ['.'] then [.current] else []
  front ++ pieces.filterMap component?

/-- The name of what a path leads to, if its last component is a name. -/
def fileName (p : FilePath) : Option Text :=
  match (components p).getLast? with
  | some (.normal name) => some name
  | _ => none

/-- Splits a file name at its last dot, if something stands in front of it. -/
def splitExtension (name : Text) : Option (Text × Text) :=
  let after := (name.reverse.takeWhile (· != '.')).reverse
  let stem := (name.take (name.length - after.length)).dropLast
  if name.contains '.' ∧ stem ≠ [] then some (stem, after) else none

/-- The part of the file name behind its last dot. -/
def extension (p : FilePath) : Option Text :=
  (fileName p).bind fun name => (splitExtension name).map Prod.snd

/-- A path below another one; an absolute path stays what it is. -/
def join (base p : FilePath) : FilePath :=
  if isAbsolute p ∨ base = [] then p
  else if base.getLast? = some '/' then base ++ p
  else base ++ '/' :: p

/-- Takes slashes, and dots between slashes, off the end of a path; the root and a dot that is the
whole path stay. Given and returned is the path from its end. -/
def trimFromEnd : Text → Text
  | '/' :: c :: rest => trimFromEnd (c :: rest)
  | '.' :: '/' :: c :: rest => trimFromEnd ('/' :: c :: rest)
  | ['.', '/'] => ['/']
  | t => t

/-- The path to the directory of what a path leads to, as it is written: the path without its last
component. The root and the empty path have none. -/
def parent (p : FilePath) : Option FilePath :=
  match trimFromEnd p.reverse with
  | [] => none
  | ['/'] => none
  | t => some (trimFromEnd (t.dropWhile (· != '/'))).reverse

/-- The path with an extension added to its file name, if it has one. -/
def addExtension? (p : FilePath) (extension : Text) : Option FilePath :=
  (fileName p).map fun _ => (trimFromEnd p.reverse).reverse ++ '.' :: extension

/-- The components joined by slashes. -/
def ofNames (names : List Text) : FilePath := ['/'].intercalate names

end FilePath

end DocTemplate
