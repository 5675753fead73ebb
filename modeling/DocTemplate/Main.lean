import DocTemplate.Command.Arguments
import DocTemplate.Command.Run

/-!
# The program

The command line, the environment and the files that a command needs are read first; then the
command runs on what has been read, and what it writes and prints is carried out.
-/

namespace DocTemplate.Program

/-- What an error of the system stands for. -/
def fileErrorOf : IO.Error → FileError
  | .noFileOrDirectory _ _ _ => .notFound
  | .alreadyExists _ _ _ => .alreadyExists
  | .inappropriateType _ code _ => if code = 20 then .notADirectory else .isADirectory
  | e => .other e.toString.toList

/-- Looks at a path. -/
def lookAt (p : FilePath) : IO (FilePath × Except FileError FileNode) := do
  try
    let bytes ← IO.FS.readBinFile (String.ofList p)
    match String.fromUTF8? bytes with
    | some content => return (p, .ok (.file content.toList))
    | none => return (p, .error .notText)
  catch e =>
    match fileErrorOf e with
    | .isADirectory => return (p, .ok .directory)
    | cause => return (p, .error cause)

/-- The lookup of paths that have been looked at. -/
def lookupOf (seen : List (FilePath × Except FileError FileNode)) : FileLookup := fun p =>
  (seen.lookup p).getD (.error .notFound)

/-- The environment variables of the process. -/
def environment : IO (List (Text × Text)) := do
  try
    let bytes ← IO.FS.readBinFile "/proc/self/environ"
    let entries := Text.splitOn '\x00' (String.fromUTF8? bytes |>.getD "").toList
    return entries.filterMap fun entry =>
      match entry.dropWhile (· != '=') with
      | _ :: value => some (entry.takeWhile (· != '='), value)
      | [] => none
  catch _ => return []

/-- Carries out what has been written. -/
def carryOut (files : FileMap) : IO (Option Trouble) := do
  try
    for (p, content) in files.latestFirst.reverse do
      if let some directory := FilePath.parent p then
        if directory != [] then IO.FS.createDirAll (String.ofList directory)
      IO.FS.writeFile (String.ofList p) (String.ofList content)
    return none
  catch e => return some (.ofPipeline (.file (fileErrorOf e)))

/-- Reads what a command needs, and runs it. -/
def perform (c : Command) : IO (Outcome FileMap) := do
  let directory : FilePath := (toString (← IO.currentDir)).toList
  let environment ← environment
  let first ← (c.pathsToRead directory).mapM lookAt
  let known : Surroundings := ⟨lookupOf first, directory, environment⟩
  let more ← (c.configuredPaths known).mapM lookAt
  return c.run { known with look := lookupOf (first ++ more) } .empty

end DocTemplate.Program

open DocTemplate in
/-- Runs the command that the arguments ask for. A command that fails ends with code 1, and
arguments that do not make sense with code 2. -/
def main (args : List String) : IO UInt32 := do
  match Command.ofText? (args.map String.toList) with
  | none =>
    (← IO.getStderr).putStr (String.ofList Command.helpText)
    return 2
  | some c =>
    let outcome ← Program.perform c
    for report in outcome.reports do
      IO.eprintln ("ERROR " ++ String.ofList report.toText)
    let unwritten ← Program.carryOut outcome.files
    match outcome.trouble.or unwritten with
    | some trouble =>
      IO.eprintln ("Error: " ++ String.ofList trouble.toText)
      return 1
    | none =>
      IO.print (String.ofList outcome.printed)
      return 0
