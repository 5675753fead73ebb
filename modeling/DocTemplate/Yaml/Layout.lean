import DocTemplate.Yaml.Block
import DocTemplate.Yaml.Plain
import DocTemplate.Yaml.Token

/-!
# The layout of a YAML text

Tokens are read one behind the other. Outside brackets and braces a token that is indented more
than its block opens a block, and one that is indented less closes blocks. The mark of a key may be
left out if the key fits into one line of at most 1024 characters: only the colon behind it shows
that it is a key, so the mark is put in later, at the place that has been remembered for it.
-/

namespace DocTemplate.Yaml

/-- A place where a key may have started. -/
structure KeyPlace where
  /-- Whether there has to be a key. -/
  required : Bool
  /-- How many tokens stand in front of it. -/
  position : Nat
  /-- How many characters of the text stand in front of it. -/
  index : Nat
  /-- Its line. -/
  line : Nat
  /-- Its column. -/
  column : Nat
  deriving DecidableEq, Repr

/-- How far the reading of tokens has come. -/
structure Layout where
  /-- The place in the text. -/
  cursor : Cursor
  /-- The columns of the open blocks, the innermost first. -/
  indents : List Nat
  /-- Whether a key may start here. -/
  keyAllowed : Bool
  /-- The place where a key may have started, for the block and for each open bracket or brace, the
  innermost first. -/
  keys : List (Option KeyPlace)
  /-- The tokens, the latest first. -/
  tokens : List YamlToken

namespace Layout

/-- Nothing has been read. -/
def start (t : Text) : Layout := ⟨.start t, [], true, [none], []⟩

/-- Whether a bracket or brace is open. -/
def inFlow (l : Layout) : Bool := 1 < l.keys.length

/-- The column of the innermost block; without one it lies in front of the first column. -/
def indent (l : Layout) : Int :=
  match l.indents with
  | [] => -1
  | column :: _ => column

/-- Adds a token. -/
def push (l : Layout) (token : YamlToken) : Layout := { l with tokens := token :: l.tokens }

/-- Puts a token at the place that `position` tokens stand in front of. -/
def insertAt (l : Layout) (position : Nat) (token : YamlToken) : Layout :=
  let later := l.tokens.length - position
  { l with tokens := l.tokens.take later ++ token :: l.tokens.drop later }

/-- Moves on. -/
def moveTo (l : Layout) (c : Cursor) : Layout := { l with cursor := c }

/-- Says whether a key may start here. -/
def allowKey (l : Layout) (allowed : Bool) : Layout := { l with keyAllowed := allowed }

/-- Sets the place where a key may have started. -/
def setKey (l : Layout) (k : Option KeyPlace) : Layout := { l with keys := k :: l.keys.drop 1 }

/-- The place where a key may have started. -/
def currentKey (l : Layout) : Option KeyPlace := (l.keys.head?).join

/-- Gives up that a key has started, unless there has to be one. -/
def dropKey (l : Layout) : Option Layout :=
  match l.currentKey with
  | some k => if k.required then none else some (l.setKey none)
  | none => some l

/-- Remembers that a key may start here. -/
def saveKey (l : Layout) : Option Layout :=
  if l.keyAllowed then
    let c := l.cursor
    let required := !l.inFlow && decide (l.indent = c.column)
    l.dropKey.map fun l => l.setKey (some ⟨required, l.tokens.length, c.index, c.line, c.column⟩)
  else some l

/-- How far a key may reach. -/
def keyLength : Nat := 1024

/-- Gives up keys that have become too long or left their line, unless there has to be one. -/
def dropStaleKeys (l : Layout) : Option Layout :=
  let isStale (k : KeyPlace) : Bool :=
    k.line < l.cursor.line || k.index + keyLength < l.cursor.index
  if l.keys.any fun k => k.any fun k => isStale k && k.required then none
  else some { l with keys := l.keys.map (·.filter fun k => !isStale k) }

/-- Opens a block if the column is behind that of the innermost one; the token that opens it is put
at the place that `position` tokens stand in front of. -/
def openBlock (l : Layout) (column position : Nat) (token : YamlToken) : Layout :=
  if !l.inFlow && decide (l.indent < column) then
    { l with indents := column :: l.indents }.insertAt position token
  else l

/-- Closes the blocks that are indented more than `column`. -/
def closeBlocks (l : Layout) (column : Int) : Layout :=
  if l.inFlow then l
  else
    let closed := (l.indents.takeWhile fun i : Nat => decide (column < (i : Int))).length
    { l with
      indents := l.indents.drop closed
      tokens := List.replicate closed .blockEnd ++ l.tokens }

/-- Passes over spaces, comments and line breaks in front of the next token, and over a byte order
mark at the start of a line. Tabs count as spaces only where no key may start. Behind a line break a
key may start, except inside brackets and braces. -/
def skipToToken (l : Layout) : Layout :=
  let unmarked :=
    if l.cursor.column == 0 && l.cursor.rest.head? == some '\uFEFF' then l.cursor.skip 1
    else l.cursor
  let spaced := (unmarked.takeWhile fun c =>
    c == ' ' || (c == '\t' && (l.inFlow || !l.keyAllowed))).2
  let place := spaced.skipComment
  match _h : place.rest with
  | [] => l.moveTo place
  | c :: _ =>
    if isBreak c then
      let next := place.skipBreak
      if next.rest.length < l.cursor.rest.length then
        ({ l with cursor := next, keyAllowed := l.keyAllowed || !l.inFlow }).skipToToken
      else l.moveTo place
    else l.moveTo place
termination_by l.cursor.rest.length
decreasing_by assumption

/-- A mark of one character. -/
def mark (l : Layout) (token : YamlToken) : Layout := (l.moveTo (l.cursor.skip 1)).push token

/-- An opening bracket or brace. -/
def openFlow (l : Layout) (token : YamlToken) : Option Layout :=
  l.saveKey.map fun l => ({ l with keys := none :: l.keys, keyAllowed := true }).mark token

/-- A closing bracket or brace. -/
def closeFlow (l : Layout) (token : YamlToken) : Option Layout :=
  l.dropKey.map fun l =>
    ({ l with keys := if l.inFlow then l.keys.drop 1 else l.keys, keyAllowed := false }).mark token

/-- A dash in front of an item. -/
def blockEntry (l : Layout) : Option Layout :=
  if !l.inFlow && !l.keyAllowed then none
  else
    let l := l.openBlock l.cursor.column l.tokens.length .blockSequenceStart
    l.dropKey.map fun l => (l.allowKey true).mark .blockEntry

/-- The mark of a key. -/
def keyMark (l : Layout) : Option Layout :=
  if !l.inFlow && !l.keyAllowed then none
  else
    let l := l.openBlock l.cursor.column l.tokens.length .blockMappingStart
    l.dropKey.map fun l => (l.allowKey (!l.inFlow)).mark .key

/-- A colon in front of a value. If a key may have started, it has. -/
def valueMark (l : Layout) : Option Layout :=
  match l.currentKey with
  | some k =>
    let l := (l.insertAt k.position .key).openBlock k.column k.position .blockMappingStart
    some (((l.setKey none).allowKey false).mark .value)
  | none =>
    if !l.inFlow && !l.keyAllowed then none
    else
      let l := l.openBlock l.cursor.column l.tokens.length .blockMappingStart
      some ((l.allowKey (!l.inFlow)).mark .value)

/-- A token that may start a key and has been read up to a place. -/
def word (l : Layout) (read : Option (YamlToken × Cursor)) : Option Layout :=
  match l.saveKey, read with
  | some l, some (token, c) => some (((l.allowKey false).moveTo c).push token)
  | _, _ => none

/-- A scalar without quotes. -/
def plain (l : Layout) : Option Layout :=
  match l.saveKey, plainScalar? l.inFlow (l.indent + 1) l.cursor with
  | some l, some (text, broken, c) =>
    some (((l.allowKey broken).moveTo c).push (.scalar text .plain))
  | _, _ => none

/-- A scalar of indented lines. -/
def block (l : Layout) (literal : Bool) : Option Layout :=
  match l.dropKey, blockScalar? literal l.indent l.cursor with
  | some l, some (text, c) => some (((l.allowKey true).moveTo c).push (.scalar text .marked))
  | _, _ => none

/-- A scalar in quotes. -/
def quoted (l : Layout) (single : Bool) : Option Layout :=
  l.word ((quotedScalar? single l.cursor).map fun (text, c) => (.scalar text .marked, c))

/-- A mark that closes all blocks: a directive or the mark of a document. -/
def outermost (l : Layout) (read : Option (YamlToken × Cursor)) : Option Layout :=
  match (l.closeBlocks (-1)).dropKey, read with
  | some l, some (token, c) => some (((l.allowKey false).moveTo c).push token)
  | _, _ => none

/-- Whether a scalar without quotes may start with a text. -/
def startsPlain (inFlow : Bool) : Text → Bool
  | [] => false
  | c :: t =>
    let isMark := ['-', '?', ':', ',', '[', ']', '{', '}', '#', '&', '*', '!', '|', '>', '\x27',
      '\x22', '%', '@', '\x60'].contains c
    !(isSeparator c || isMark) || (c == '-' && !(t.head?.any isGap)) ||
      (!inFlow && (c == '?' || c == ':') && !atSeparator t)

/-- Reads the token at the cursor, of which `c` is the first character and `t` is what follows. -/
def readToken (l : Layout) (c : Char) (t : Text) : Option Layout :=
  let atLineStart := l.cursor.column == 0
  if atLineStart && c == '%' then
    l.outermost ((directive? l.cursor).map fun (d, place) => (.directive d, place))
  else if atLineStart && startsMarker documentStart (c :: t) then
    l.outermost (some (.documentStart, l.cursor.skip 3))
  else if atLineStart && startsMarker documentEnd (c :: t) then
    l.outermost (some (.documentEnd, l.cursor.skip 3))
  else if c = '[' then l.openFlow .flowSequenceStart
  else if c = '{' then l.openFlow .flowMappingStart
  else if c = ']' then l.closeFlow .flowSequenceEnd
  else if c = '}' then l.closeFlow .flowMappingEnd
  else if c = ',' then l.dropKey.map fun l => (l.allowKey true).mark .flowEntry
  else if c == '-' && atSeparator t then l.blockEntry
  else if c == '?' && (l.inFlow || atSeparator t) then l.keyMark
  else if c == ':' && (l.inFlow || atSeparator t) then l.valueMark
  else if c = '*' then l.word ((anchorName? l.cursor).map fun (n, place) => (.reference n, place))
  else if c = '&' then l.word ((anchorName? l.cursor).map fun (n, place) => (.anchor n, place))
  else if c = '!' then
    l.word ((tagName? l.inFlow l.cursor).map fun (n, place) => (.tag n, place))
  else if c == '|' && !l.inFlow then l.block true
  else if c == '>' && !l.inFlow then l.block false
  else if c = '\x27' then l.quoted true
  else if c = '\x22' then l.quoted false
  else if startsPlain l.inFlow (c :: t) then l.plain
  else none

/-- The end of the text closes everything that indentation has opened. -/
def finish (l : Layout) : Option (List YamlToken) :=
  (l.closeBlocks (-1)).dropKey.map fun l => (l.push .streamEnd).tokens.reverse

/-- Reads tokens up to the end of the text. -/
def readAll (l : Layout) : Option (List YamlToken) :=
  let place := l.skipToToken
  match place.dropStaleKeys with
  | none => none
  | some fresh =>
    let here := fresh.closeBlocks fresh.cursor.column
    match here.cursor.rest with
    | [] => here.finish
    | c :: t =>
      match here.readToken c t with
      | none => none
      | some next =>
        if next.cursor.rest.length < l.cursor.rest.length then next.readAll else none
termination_by l.cursor.rest.length

end Layout

/-- The tokens of a YAML text. -/
def tokens? (t : Text) : Option (List YamlToken) :=
  if t.all isPrintable then (Layout.start t).readAll else none

end DocTemplate.Yaml
