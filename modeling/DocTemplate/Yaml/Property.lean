import DocTemplate.Yaml.Cursor

/-!
# Names in YAML

Anchors and aliases are words behind a mark. A tag is a handle and the rest of it, or stands between
angles; it may hold any character by the numbers of its bytes. Directives give the version of a
document or a meaning to a handle.
-/

namespace DocTemplate.Yaml

/-- What may follow the name of an anchor or alias, besides a separator. -/
def endsName (t : Text) : Bool :=
  match t with
  | [] => true
  | c :: _ => isSeparator c || ['?', ':', ',', ']', '}', '%', '@', '\x60'].contains c

/-- Reads the name of an anchor or alias behind its mark. -/
def anchorName? (c : Cursor) : Option (Text × Cursor) :=
  let (name, behind) := (c.skip 1).takeWhile isWordChar
  if name != [] && endsName behind.rest then some (name, behind) else none

/-- A tag as it is written. -/
structure TagName where
  /-- The handle; a tag between angles has an empty one. -/
  handle : Text
  /-- The rest of the tag. -/
  suffix : Text
  deriving DecidableEq, Repr

/-- The characters of tags; between angles there are three more. -/
def isTagChar (verbatim : Bool) (c : Char) : Bool :=
  isWordChar c ||
    [';', '/', '?', ':', '@', '&', '=', '+', '$',
      '.', '!', '~', '*', '\x27', '(', ')'].contains c ||
    (verbatim && [',', '[', ']'].contains c)

/-- The value of a hexadecimal digit. -/
def nibble? (c : Char) : Option Nat :=
  if c.isDigit then some (c.toNat - '0'.toNat)
  else if 'a' ≤ c ∧ c ≤ 'f' then some (c.toNat - 'a'.toNat + 10)
  else if 'A' ≤ c ∧ c ≤ 'F' then some (c.toNat - 'A'.toNat + 10)
  else none

/-- What the first byte of a UTF-8 form says: how many bytes follow, and the bits it brings. -/
def leadByte? (b : Nat) : Option (Nat × Nat) :=
  if b < 0x80 then some (0, b)
  else if b / 0x20 = 0x06 then some (1, b % 0x20)
  else if b / 0x10 = 0x0E then some (2, b % 0x10)
  else if b / 0x08 = 0x1E then some (3, b % 0x08)
  else none

/-- Reads the characters of a tag: what they stand for and the text behind them. `left` is how many
bytes of a character are still to come, whose value is `value` so far. -/
def readTagChars (verbatim : Bool) (left value : Nat) : Text → Option (Text × Text)
  | '%' :: a :: b :: t =>
    match nibble? a, nibble? b with
    | some x, some y =>
      let byte := 16 * x + y
      if left = 0 then
        match leadByte? byte with
        | some (0, bits) => (readTagChars verbatim 0 0 t).map fun (cs, behind) =>
            (Char.ofNat bits :: cs, behind)
        | some (more, bits) => readTagChars verbatim more bits t
        | none => none
      else if byte / 0x40 ≠ 2 then none
      else
        let value := 0x40 * value + byte % 0x40
        if left = 1 then
          (readTagChars verbatim 0 0 t).map fun (cs, behind) => (Char.ofNat value :: cs, behind)
        else readTagChars verbatim (left - 1) value t
    | _, _ => none
  | c :: t =>
    if c = '%' ∨ (left ≠ 0) then none
    else if isTagChar verbatim c then
      (readTagChars verbatim 0 0 t).map fun (cs, behind) => (c :: cs, behind)
    else some ([], c :: t)
  | [] => if left = 0 then some ([], []) else none

/-- Reads characters of a tag at a place. -/
def tagChars? (verbatim : Bool) (c : Cursor) : Option (Text × Cursor) :=
  (readTagChars verbatim 0 0 c.rest).map fun (cs, behind) =>
    (cs, c.skip (c.rest.length - behind.length))

/-- Reads a handle at its exclamation mark: a word, which may have a second mark behind it. -/
def tagHandle? (c : Cursor) : Option (Text × Cursor) :=
  match c.rest with
  | '!' :: _ =>
    let (word, behind) := (c.skip 1).takeWhile isWordChar
    if behind.rest.head? = some '!' then some ('!' :: word ++ ['!'], behind.skip 1)
    else some ('!' :: word, behind)
  | _ => none

/-- Reads a tag at its exclamation mark. A word without a second mark is no handle but the start of
the rest of the tag; a mark alone is a tag without a handle. -/
def tagName? (inFlow : Bool) (c : Cursor) : Option (TagName × Cursor) :=
  let read : Option (TagName × Cursor) :=
    if (c.rest.drop 1).head? = some '<' then
      match tagChars? true (c.skip 2) with
      | some (suffix, behind) =>
        if suffix ≠ [] ∧ behind.rest.head? = some '>' then some (⟨[], suffix⟩, behind.skip 1)
        else none
      | none => none
    else
      match tagHandle? c with
      | none => none
      | some (handle, behind) =>
        match tagChars? false behind with
        | none => none
        | some (more, last) =>
          if 2 ≤ handle.length ∧ handle.getLast? = some '!' then
            if more = [] then none else some (⟨handle, more⟩, last)
          else
            let suffix := handle.drop 1 ++ more
            if suffix = [] then some (⟨[], ['!']⟩, last) else some (⟨['!'], suffix⟩, last)
  match read with
  | some (name, behind) =>
    if atSeparator behind.rest || (inFlow && behind.rest.head? == some ',') then some (name, behind)
    else none
  | none => none

/-- A directive. -/
inductive Directive where
  /-- The version of a document. -/
  | version (major minor : Nat)
  /-- The meaning of a handle. -/
  | handle (handle meaning : Text)
  deriving DecidableEq, Repr

/-- Reads a number of at most nine digits. -/
def versionNumber? (c : Cursor) : Option (Nat × Cursor) :=
  let (digits, behind) := c.takeWhile Char.isDigit
  if digits.length ≤ 9 then (Text.toNat? digits).map fun n => (n, behind) else none

/-- Reads a directive at its percent sign, with the rest of its line. -/
def directive? (c : Cursor) : Option (Directive × Cursor) :=
  let (name, behind) := (c.skip 1).takeWhile isWordChar
  let value := behind.skipGaps
  let read : Option (Directive × Cursor) :=
    if name = [] ∨ !atSeparator behind.rest then none
    else if name = ['Y', 'A', 'M', 'L'] then
      match versionNumber? value with
      | some (major, point) =>
        if point.rest.head? = some '.' then
          (versionNumber? (point.skip 1)).map fun (minor, last) => (.version major minor, last)
        else none
      | none => none
    else if name = ['T', 'A', 'G'] then
      match tagHandle? value with
      | some (handle, afterHandle) =>
        let isHandle := handle = ['!'] ∨ (2 ≤ handle.length ∧ handle.getLast? = some '!')
        if isHandle ∧ (afterHandle.rest.head?.any isGap) then
          match tagChars? true afterHandle.skipGaps with
          | some (meaning, last) =>
            if meaning ≠ [] ∧ atSeparator last.rest then some (.handle handle meaning, last)
            else none
          | none => none
        else none
      | none => none
    else none
  match read with
  | some (directive, last) =>
    let lineEnd := last.skipGaps.skipComment
    if atBreak lineEnd.rest then some (directive, lineEnd.skipBreak) else none
  | none => none

end DocTemplate.Yaml
