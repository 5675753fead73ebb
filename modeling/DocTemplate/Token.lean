import DocTemplate.Construct

/-!
# Tokens

A source is woven into tokens: text, tags and escaped interpolations. Each construct of the source
is read under the settings; what is no tag joins the text around it. A statement that shares its
line with nothing but spaces, tabs and other statements takes the whole line along, its line feed
included. The tokens tile the source: every token knows the part of the source that it covers, and
a tag knows which part of that is dropped.
-/

namespace DocTemplate

/-- The word that turns the interpolation behind it into text. -/
def notVar : Text := ['n', 'o', 't', '_', 'v', 'a', 'r']

/-- What a construct is under given settings. -/
inductive Reading where
  /-- Text like any other. -/
  | plain
  /-- A tag with what it says. -/
  | tag (kind : TagKind) (content : Text)
  /-- An interpolation that is escaped. -/
  | escaped
  deriving DecidableEq, Repr

/-- Reads a construct. A statement is known by its first word, and an interpolation is escaped by
the word directly in front of it; what is not recognised or switched off is text. -/
def Construct.reading (s : Settings) (c : Construct) : Reading :=
  match c.delimiter with
  | .statement =>
    let content := statementContent c.inner
    match (Text.words content).head?.bind Keyword.ofText? with
    | some k => if s.enables (.statement k) then .tag (.statement k) content else .plain
    | none => .plain
  | .interpolation =>
    if s.enables .interpolation then
      if notVar.isSuffixOf c.gap then
        if s.keepNotVar then .plain else .escaped
      else .tag .interpolation (Text.trim c.inner)
    else .plain

/-- A tag of a source. -/
structure Tag where
  /-- Its kind. -/
  kind : TagKind
  /-- What it says, without delimiters, dashes and the blanks around it. -/
  content : Text
  /-- The blanks in front of it that are dropped with it. -/
  lead : Text
  /-- The tag as it is written. -/
  raw : Text
  /-- The rest of its line that is dropped with it. -/
  trail : Text
  /-- Whether it stands on a line of its own. -/
  isolated : Bool
  /-- Whether it starts on a line of fenced code. -/
  fenced : Bool
  deriving DecidableEq, Repr

/-- A piece of a source. -/
inductive Token where
  /-- Text that stays as it is. -/
  | text (t : Text)
  /-- A tag. -/
  | tag (tag : Tag)
  /-- An escaped interpolation without the word that escapes it. -/
  | escaped (literal : Text)
  deriving DecidableEq, Repr

/-- The part of the source that a tag covers. -/
def Tag.source (t : Tag) : Text := t.lead ++ t.raw ++ t.trail

/-- The part of the source that a token covers. -/
def Token.source : Token → Text
  | .text t => t
  | .tag t => t.source
  | .escaped literal => notVar ++ literal

/-- A construct that is not plain text, with the text since the one before. -/
inductive Mark where
  /-- A tag. -/
  | tag (kind : TagKind) (content raw : Text) (fenced : Bool)
  /-- An escaped interpolation. -/
  | escaped (literal : Text)
  deriving DecidableEq, Repr

/-- Whether a mark is a statement. -/
def Mark.isStatement : Mark → Bool
  | .tag kind _ _ _ => kind.isStatement
  | .escaped _ => false

/-- A mark with the text in front of it. -/
structure Item where
  /-- The text since the mark before. -/
  gap : Text
  /-- The mark. -/
  mark : Mark
  deriving DecidableEq, Repr

/-- Reads constructs in order, with `pending` as the text in front of them, and joins the plain
ones to the text around: the marks, and the text behind the last of them. -/
def collectItems (s : Settings) (pending : Text) : List Construct → Text → List Item × Text
  | [], tail => ([], pending ++ tail)
  | c :: rest, tail =>
    match c.reading s with
    | .plain => collectItems s (pending ++ c.source) rest tail
    | .tag kind content =>
      let (items, tail) := collectItems s [] rest tail
      (⟨pending ++ c.gap, .tag kind content c.raw c.fenced⟩ :: items, tail)
    | .escaped =>
      let (items, tail) := collectItems s [] rest tail
      (⟨pending ++ Text.dropSuffix notVar c.gap, .escaped c.raw⟩ :: items, tail)

/-- Whether a text starts with the blank end of a line: spaces and tabs, perhaps a carriage return,
then a line feed or nothing. -/
def startsWithLineEnd (t : Text) : Bool :=
  Text.isHorizontalOnly (Text.dropSuffix ['\r'] (t.takeWhile (· != '\n')))

/-- Whether nothing but spaces and tabs stands between the start of a line and the end of `gap`. If
`gap` holds no line feed, its line starts in front of it, and `clear` says whether that part is
free of anything else. -/
def endsWithLineStart (clear : Bool) (gap : Text) : Bool :=
  Text.isHorizontalOnly (Text.lastLine gap) && (clear || gap.contains '\n')

/-- Whether only spaces, tabs and statements stand between here and the end of the line. -/
def reachesLineEnd : List Item → Text → Bool
  | [], tail => startsWithLineEnd tail
  | item :: rest, tail =>
    if item.gap.contains '\n' then startsWithLineEnd item.gap
    else Text.isHorizontalOnly item.gap && item.mark.isStatement && reachesLineEnd rest tail

/-- What an isolated tag takes along behind it: the end of its line, unless another statement
follows on the line. -/
def lineTrail : List Item → Text → Text
  | [], tail => Text.throughLineFeed tail
  | item :: _, _ => if item.gap.contains '\n' then Text.throughLineFeed item.gap else []

/-- A text token, unless there is no text. -/
def textToken (t : Text) : List Token := if t = [] then [] else [.text t]

/-- Weaves marks and the text between them into tokens. `clear` says whether the line up to here
holds nothing but spaces, tabs and statements; `taken` is how much of the next text the tag before
has taken along. -/
def weave (clear : Bool) (taken : Nat) : List Item → Text → List Token
  | [], tail => textToken (tail.drop taken)
  | ⟨whole, mark⟩ :: rest, tail =>
    let gap := whole.drop taken
    match mark with
    | .escaped literal => textToken gap ++ .escaped literal :: weave false 0 rest tail
    | .tag kind content raw fenced =>
      let clear := kind.isStatement && endsWithLineStart clear whole
      if clear && reachesLineEnd rest tail then
        let trail := lineTrail rest tail
        textToken (Text.beforeLastLine gap) ++
          .tag ⟨kind, content, Text.lastLine gap, raw, trail, true, fenced⟩ ::
          weave clear trail.length rest tail
      else
        textToken gap ++ .tag ⟨kind, content, [], raw, [], false, fenced⟩ ::
          weave clear 0 rest tail

/-- The tokens of a source that has been cut. -/
def Cut.tokens (s : Settings) (cut : Cut) : List Token :=
  let (items, tail) := collectItems s [] cut.constructs cut.tail
  weave true 0 items tail

/-- Scans a source into tokens. -/
def scan (s : Settings) (source : Text) : Except Unterminated (List Token) :=
  (Cut.ofSource (!s.conditionsInCode) source).map (Cut.tokens s)

/-- A range of byte offsets. -/
structure Span where
  /-- Where it starts. -/
  first : Nat
  /-- Where it ends: the first offset behind it. -/
  last : Nat
  deriving DecidableEq, Repr

/-- A token with its place in the source. -/
structure PlacedToken where
  /-- The token. -/
  token : Token
  /-- The bytes that it covers. -/
  consumed : Span
  /-- For a tag, the bytes of the tag as it is written; else the bytes that the token covers. -/
  span : Span
  deriving DecidableEq, Repr

/-- Places tokens one behind the other from a byte offset on. -/
def placeTokens (offset : Nat) : List Token → List PlacedToken
  | [] => []
  | token :: rest =>
    let last := offset + Text.utf8Size token.source
    let span := match token with
      | .tag t =>
        ⟨offset + Text.utf8Size t.lead, offset + Text.utf8Size t.lead + Text.utf8Size t.raw⟩
      | _ => ⟨offset, last⟩
    ⟨token, ⟨offset, last⟩, span⟩ :: placeTokens last rest

end DocTemplate
