import DocTemplate.Yaml.Folding

/-!
# Quoted scalars

Between single quotes a quote is written twice. Between double quotes a backslash starts an escape,
also of a line break, which then leaves nothing behind. Lines are folded, but what is escaped is
not. No line of a quoted scalar starts with a document marker.
-/

namespace DocTemplate.Yaml

/-- What stands between quotes. -/
inductive QuotedUnit where
  /-- A character as it is. -/
  | char (c : Char)
  /-- A character that is escaped. -/
  | literal (c : Char)
  /-- A line break that is escaped. -/
  | joint
  deriving DecidableEq, Repr

/-- Where the reading of a quoted scalar stands. -/
inductive QuotedState where
  /-- Between characters. -/
  | plain
  /-- Behind a single quote, which is the first of two or the last character. -/
  | quote
  /-- Behind a backslash. -/
  | escape
  /-- Behind an escaped carriage return. -/
  | carriage
  /-- In a character that is written by its number: the digits to come and the number so far. -/
  | digits (left value : Nat)
  deriving DecidableEq, Repr

/-- The value of a hexadecimal digit. -/
def hexValue? (c : Char) : Option Nat :=
  if '0' ≤ c ∧ c ≤ '9' then some (c.toNat - '0'.toNat)
  else if 'a' ≤ c ∧ c ≤ 'f' then some (c.toNat - 'a'.toNat + 10)
  else if 'A' ≤ c ∧ c ≤ 'F' then some (c.toNat - 'A'.toNat + 10)
  else none

/-- The escapes of a single character. -/
def escapes : List (Char × Nat) :=
  [('0', 0), ('a', 7), ('b', 8), ('t', 9), ('\t', 9), ('n', 10), ('v', 11), ('f', 12), ('r', 13),
    ('e', 27), (' ', 0x20), ('\x22', 0x22), ('/', 0x2F), ('\\', 0x5C), ('N', 0x85), ('_', 0xA0),
    ('L', 0x2028), ('P', 0x2029)]

/-- The number of digits of an escape by number. -/
def escapeDigits? (c : Char) : Option Nat :=
  if c = 'x' then some 2 else if c = 'u' then some 4 else if c = 'U' then some 8 else none

/-- The character of a number, if it has one. -/
def charOfNumber? (n : Nat) : Option Char := if n.isValidChar then some (Char.ofNat n) else none

/-- Adds a unit in front of what has been read behind it. -/
def consUnit (u : QuotedUnit) (r : Option (List QuotedUnit × Text)) :
    Option (List QuotedUnit × Text) :=
  r.map fun (units, behind) => (u :: units, behind)

/-- Reads what stands behind an opening quote: the units up to the closing one, and the text behind
that. -/
def readQuoted (single : Bool) : QuotedState → Text → Option (List QuotedUnit × Text)
  | .quote, [] => some ([], [])
  | _, [] => none
  | .plain, c :: t =>
    if isBreak c then
      if atDocumentMarker t then none else consUnit (.char c) (readQuoted single .plain t)
    else if single && c == '\x27' then readQuoted single .quote t
    else if !single && c == '\x22' then some ([], t)
    else if !single && c == '\\' then readQuoted single .escape t
    else consUnit (.char c) (readQuoted single .plain t)
  | .quote, c :: t =>
    if c = '\x27' then consUnit (.literal c) (readQuoted single .plain t) else some ([], c :: t)
  | .escape, c :: t =>
    if isBreak c then
      if atDocumentMarker t then none
      else consUnit .joint (readQuoted single (if c = '\r' then .carriage else .plain) t)
    else match escapeDigits? c with
      | some n => readQuoted single (.digits n 0) t
      | none =>
        match escapes.lookup c with
        | some n => consUnit (.literal (Char.ofNat n)) (readQuoted single .plain t)
        | none => none
  | .carriage, c :: t =>
    if c = '\n' then
      if atDocumentMarker t then none else readQuoted single .plain t
    else if single && c == '\x27' then readQuoted single .quote t
    else if !single && c == '\x22' then some ([], t)
    else if !single && c == '\\' then readQuoted single .escape t
    else consUnit (.char c) (readQuoted single .plain t)
  | .digits left value, c :: t =>
    match hexValue? c with
    | none => none
    | some d =>
      if left ≤ 1 then
        match charOfNumber? (16 * value + d) with
        | some decoded => consUnit (.literal decoded) (readQuoted single .plain t)
        | none => none
      else readQuoted single (.digits (left - 1) (16 * value + d)) t

/-- The text of units. `run` is the run of spaces, tabs and line breaks in front of them, the latest
first, and `escaped` says whether it follows an escaped line break. -/
def joinUnits (escaped : Bool) (run : Text) : List QuotedUnit → Text
  | [] => flush
  | .char c :: rest =>
    if isSeparator c then joinUnits escaped (c :: run) rest
    else flush ++ c :: joinUnits false [] rest
  | .literal c :: rest => flush ++ c :: joinUnits false [] rest
  | .joint :: rest => flush ++ joinUnits true [] rest
where
  /-- What the run becomes. -/
  flush : Text := if escaped then foldEscaped run.reverse else foldRun run.reverse

/-- Passes over a text that may hold line breaks, of which `behind` is what remains. -/
def Cursor.passTo (c : Cursor) (behind : Text) : Cursor :=
  let passed := c.rest.take (c.rest.length - behind.length)
  let lines := (breaksOf passed).length
  let last := (passed.reverse.takeWhile fun d => !isBreak d).length
  ⟨behind, c.index + passed.length, c.line + lines,
    if lines = 0 then c.column + passed.length else last⟩

/-- Reads a quoted scalar at its opening quote. -/
def quotedScalar? (single : Bool) (c : Cursor) : Option (Text × Cursor) :=
  (readQuoted single .plain (c.rest.drop 1)).map fun (units, behind) =>
    (joinUnits false [] units, c.passTo behind)

end DocTemplate.Yaml
