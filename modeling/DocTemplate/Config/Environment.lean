import DocTemplate.Config.Address

/-!
# Configuration from the environment

An environment variable whose name starts with the name of the program and two underscores is put
into the configuration. Case does not matter in its name, and two underscores stand between the
names of an address. Its value is a truth value, a number or else a text.
-/

namespace DocTemplate

namespace ConfigTree

/-- What the names of the variables start with, in small letters. -/
def environmentMark : Text := "undox_liquid__".toList

/-- Puts a dot in place of every two underscores. -/
def dotted : Text → Text
  | '_' :: '_' :: t => '.' :: dotted t
  | c :: t => c :: dotted t
  | [] => []

/-- The tree that the value of an environment variable stands for. -/
def ofEnvironmentValue (t : Text) : ConfigTree :=
  let word := Text.lower t
  if word = "true".toList then bool true
  else if word = "false".toList then bool false
  else match integerOfText? t with
    | some n => integer n
    | none => if (realOfText? t).isSome then real t else string t

/-- The address and the tree of an environment variable that belongs to the configuration. -/
def ofEnvironmentVariable? (name value : Text) : Option (Text × ConfigTree) :=
  let small := Text.lower name
  if environmentMark.isPrefixOf small then
    some (dotted (small.drop environmentMark.length), ofEnvironmentValue value)
  else none

/-- The addresses and trees that an environment gives; of several for one address the last one
counts. -/
def ofEnvironment (environment : List (Text × Text)) : Entries ConfigTree :=
  Entries.ofList (environment.filterMap fun (name, value) => ofEnvironmentVariable? name value)

/-- Puts trees at the addresses that are written in front of them. -/
def layer (tree : ConfigTree) (values : Entries ConfigTree) : ConfigTree :=
  values.foldl (fun tree (address, value) => putAt value tree (AddressStep.ofText address)) tree

end ConfigTree

end DocTemplate
