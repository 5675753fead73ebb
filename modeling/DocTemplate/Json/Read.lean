import DocTemplate.Json.Token

/-!
# Reading JSON

The tokens of a JSON text are read one by one. What is open is kept as a stack of half finished
arrays and objects, and what may come next follows from what came before. A tree may be nested 127
levels deep.
-/

namespace DocTemplate

namespace Json

/-- An array or object that has been opened but not closed. -/
inductive Pending where
  /-- The items so far, the latest first. -/
  | array (items : List Json)
  /-- The members so far, the latest first, and the name of the next one. -/
  | object (members : List (Text × Json)) (name : Text)

/-- What may come next. -/
inductive Expected where
  /-- A value. -/
  | value
  /-- The first item of an array, or its end. -/
  | firstItem
  /-- The name of the first member of an object, or its end. -/
  | firstName
  /-- The name of a member. -/
  | name (members : List (Text × Json))
  /-- What separates the name of a member from its value. -/
  | colon (members : List (Text × Json)) (name : Text)
  /-- What separates two items or members, or the end of what is open. -/
  | separator
  /-- Nothing: this is the tree. -/
  | finished (j : Json)

/-- Where a reading stands. -/
structure Reader where
  /-- What is open, the innermost first. -/
  stack : List Pending
  /-- What may come next. -/
  expected : Expected

/-- How deep a tree may be nested. -/
def depthLimit : Nat := 127

namespace Reader

/-- Nothing has been read. -/
def start : Reader := ⟨[], .value⟩

/-- Puts a finished value where it belongs. -/
def deliver (stack : List Pending) (j : Json) : Reader :=
  match stack with
  | [] => ⟨[], .finished j⟩
  | .array items :: rest => ⟨.array (j :: items) :: rest, .separator⟩
  | .object members name :: rest => ⟨.object ((name, j) :: members) [] :: rest, .separator⟩

/-- Reads a token where a value may stand. -/
def acceptValue (stack : List Pending) : JsonToken → Option Reader
  | .text t => some (deliver stack (.string t))
  | .scalar j => some (deliver stack j)
  | .openArray => if stack.length < depthLimit then some ⟨.array [] :: stack, .firstItem⟩ else none
  | .openObject =>
    if stack.length < depthLimit then some ⟨.object [] [] :: stack, .firstName⟩ else none
  | _ => none

/-- Reads a token. -/
def accept (r : Reader) (token : JsonToken) : Option Reader :=
  match r.expected, r.stack, token with
  | .value, stack, token => acceptValue stack token
  | .firstItem, .array _ :: rest, .closeArray => some (deliver rest (.array []))
  | .firstItem, stack, token => acceptValue stack token
  | .firstName, .object _ _ :: rest, .closeObject => some (deliver rest (.object []))
  | .firstName, .object members _ :: rest, .text name => some ⟨rest, .colon members name⟩
  | .name members, stack, .text name => some ⟨stack, .colon members name⟩
  | .colon members name, stack, .colon => some ⟨.object members name :: stack, .value⟩
  | .separator, .array items :: rest, .comma => some ⟨.array items :: rest, .value⟩
  | .separator, .array items :: rest, .closeArray => some (deliver rest (.array items.reverse))
  | .separator, .object members _ :: rest, .comma => some ⟨rest, .name members⟩
  | .separator, .object members _ :: rest, .closeObject =>
    some (deliver rest (.object members.reverse))
  | _, _, _ => none

/-- Reads tokens in order. -/
def acceptAll (r : Reader) : List JsonToken → Option Reader
  | [] => some r
  | token :: rest => (r.accept token).bind (acceptAll · rest)

/-- The tree, if all of it has been read. -/
def finish (r : Reader) : Option Json :=
  match r.expected with
  | .finished j => some j
  | _ => none

end Reader

/-- Reads a JSON text. -/
def ofText? (t : Text) : Option Json :=
  (JsonToken.ofText? t).bind fun tokens => (Reader.start.acceptAll tokens).bind Reader.finish

end Json

end DocTemplate
