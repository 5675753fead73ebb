import DocTemplate.FilePath

/-!
# Files

What may go wrong with files, how paths are looked up, and what files can be written to. The
simplest thing to write to keeps what has been written under each path and never refuses.
-/

namespace DocTemplate

/-- Why a file operation fails. -/
inductive FileError where
  /-- Nothing is there. -/
  | notFound
  /-- Something is there already. -/
  | alreadyExists
  /-- A file stands where a directory is needed. -/
  | notADirectory
  /-- A directory stands where a file is needed. -/
  | isADirectory
  /-- A name or the whole path is too long. -/
  | nameTooLong
  /-- A path holds a character that no name may hold. -/
  | invalidName
  /-- The content of a file is no text. -/
  | notText
  /-- Any other reason. -/
  | other (reason : Text)
  deriving DecidableEq, Repr

/-- What is said of a file operation that fails. -/
def FileError.message : FileError → Text
  | notFound => "No such file or directory (os error 2)".toList
  | alreadyExists => "File exists (os error 17)".toList
  | notADirectory => "Not a directory (os error 20)".toList
  | isADirectory => "Is a directory (os error 21)".toList
  | nameTooLong => "File name too long (os error 36)".toList
  | invalidName => "file name contained an unexpected NUL byte".toList
  | notText => "stream did not contain valid UTF-8".toList
  | other reason => reason

/-- What a path leads to. -/
inductive FileNode where
  /-- A file. -/
  | file (content : Text)
  /-- A directory. -/
  | directory
  deriving DecidableEq, Repr

/-- How paths are looked up: what a path leads to, or why it leads nowhere. -/
abbrev FileLookup := FilePath → Except FileError FileNode

namespace FileLookup

/-- The content of the file that a path leads to. -/
def read (look : FileLookup) (p : FilePath) : Except FileError Text :=
  match look p with
  | .ok (.file content) => .ok content
  | .ok .directory => .error .isADirectory
  | .error e => .error e

/-- Whether a path leads anywhere. -/
def leadsAnywhere (look : FileLookup) (p : FilePath) : Bool := (look p).toBool

end FileLookup

/-- What files can be written to. -/
class Storage (σ : Type) where
  /-- Gives a content to the file at a path, with the directories that it lies in. -/
  write : σ → FilePath → Text → Except FileError σ

/-- The contents that have been written, by path. -/
structure FileMap where
  /-- What has been written under which path, the latest first. -/
  latestFirst : List (FilePath × Text)

namespace FileMap

/-- Nothing has been written. -/
def empty : FileMap := ⟨[]⟩

/-- What has been written last under a path. -/
def get? (m : FileMap) (p : FilePath) : Option Text := m.latestFirst.lookup p

/-- Writes a content under a path. -/
def write (m : FileMap) (p : FilePath) (content : Text) : FileMap :=
  ⟨(p, content) :: m.latestFirst⟩

instance : Storage FileMap := ⟨fun m p content => .ok (m.write p content)⟩

/-- The path that has just been written has the content that was written, and others stay. -/
@[simp] theorem get?_write (m : FileMap) (p q : FilePath) (content : Text) :
    (m.write p content).get? q = if q = p then some content else m.get? q := by
  simp only [get?, write, List.lookup_cons]
  by_cases h : q = p
  · simp [h]
  · simp [h, beq_eq_false_iff_ne.2 h]

end FileMap

end DocTemplate
