import DocTemplate.Fence
import DocTemplate.Tag

/-!
# Constructs

A source is cut at its openers. Every opener that is not passed over reaches to the first closer of
its kind behind it, and the two with what stands between them are a construct; an opener inside a
construct is part of it. What a construct means does not matter here: the cut depends on nothing
but the source and on whether openers in fenced code count. An opener without a closer makes the
cut fail.
-/

namespace DocTemplate

/-- A construct with the plain text in front of it. -/
structure Construct where
  /-- The text between the construct before and this one. -/
  gap : Text
  /-- The kind of its delimiters. -/
  delimiter : Delimiter
  /-- What stands between its delimiters. -/
  inner : Text
  /-- Whether it starts on a line of fenced code. -/
  fenced : Bool
  deriving DecidableEq, Repr

namespace Construct

/-- The construct as it is written. -/
def raw (c : Construct) : Text := c.delimiter.opener ++ c.inner ++ c.delimiter.closer

/-- The part of the source that a construct with its gap covers. -/
def source (c : Construct) : Text := c.gap ++ c.raw

end Construct

/-- An opener that has no closer: where it stands in the source. -/
structure Unterminated where
  /-- The source in front of the opener. -/
  before : Text
  /-- The kind of the opener. -/
  delimiter : Delimiter
  /-- The source behind the opener. -/
  rest : Text
  deriving DecidableEq, Repr

namespace Unterminated

/-- Where the opener stands. -/
def location (u : Unterminated) : Location := Location.start.after u.before

/-- The greatest number of characters that an excerpt shows. -/
def excerptLength : Nat := 32

/-- The start of the line from the opener on. -/
def excerpt (u : Unterminated) : Text :=
  ((u.delimiter.opener ++ u.rest).takeWhile (· != '\n')).take excerptLength

end Unterminated

/-- An opener in a source: what it leads to. -/
structure Opening where
  /-- The text in front of the opener. -/
  gap : Text
  /-- The kind of the opener. -/
  delimiter : Delimiter
  /-- The fence flags of the opener's line and the lines below it. -/
  flags : List Bool
  /-- The source behind the opener. -/
  rest : Text

/-- Finds the first opener, given the fence flags of the lines from here on. If `suppress` holds,
openers on fenced lines are passed over, two characters at a time. -/
def findOpening (suppress : Bool) (flags : List Bool) : Text → Option Opening
  | a :: b :: rest =>
    match Delimiter.ofOpener? a b with
    | some d =>
      if suppress && flags.headD false then
        (findOpening suppress flags rest).map fun o => { o with gap := a :: b :: o.gap }
      else some ⟨[], d, flags, rest⟩
    | none =>
      (findOpening suppress (if a = '\n' then flags.tail else flags) (b :: rest)).map fun o =>
        { o with gap := a :: o.gap }
  | _ => none

/-- What is found is a part of the source. -/
theorem eq_of_findOpening {suppress : Bool} {flags : List Bool} {source : Text} {o : Opening}
    (h : findOpening suppress flags source = some o) :
    source = o.gap ++ o.delimiter.opener ++ o.rest := by
  fun_induction findOpening suppress flags source generalizing o with
  | case1 flags a b rest d hd hs ih =>
    obtain ⟨o', ho', rfl⟩ := Option.map_eq_some_iff.1 h
    simpa using ih ho'
  | case2 flags a b rest d hd hs =>
    simp only [Option.some.injEq] at h
    subst h
    simpa using congrArg (· ++ rest) (Delimiter.ofOpener?_eq_some_iff.1 hd)
  | case3 flags a b rest hd ih =>
    obtain ⟨o', ho', rfl⟩ := Option.map_eq_some_iff.1 h
    simpa using ih ho'
  | case4 => simp at h

/-- The cut of a source: its constructs in order and the plain text behind the last of them. -/
structure Cut where
  /-- The constructs, each with the text in front of it. -/
  constructs : List Construct
  /-- The text behind the last construct. -/
  tail : Text
  deriving DecidableEq, Repr

namespace Cut

/-- Cuts a source whose lines have the given fence flags. -/
def ofFlagged (suppress : Bool) (flags : List Bool) (source : Text) : Except Unterminated Cut :=
  match _hopen : findOpening suppress flags source with
  | none => .ok ⟨[], source⟩
  | some o =>
    match _hclose : Text.splitAtPair o.delimiter.closingMark '}' o.rest with
    | none => .error ⟨o.gap, o.delimiter, o.rest⟩
    | some (inner, rest) =>
      let construct : Construct := ⟨o.gap, o.delimiter, inner, o.flags.headD false⟩
      match ofFlagged suppress (o.flags.drop (inner.count '\n')) rest with
      | .error u => .error { u with before := construct.source ++ u.before }
      | .ok cut => .ok { cut with constructs := construct :: cut.constructs }
termination_by source.length
decreasing_by
  have h := congrArg List.length (eq_of_findOpening _hopen)
  have h' := congrArg List.length (Text.eq_of_splitAtPair _hclose)
  simp only [List.length_append, List.length_cons] at h h'
  omega

/-- Cuts a source. If `suppress` holds, openers on lines of fenced code do not count. -/
def ofSource (suppress : Bool) (source : Text) : Except Unterminated Cut :=
  ofFlagged suppress (Fence.lineFlags source) source

/-- The source that a cut is a cut of. -/
def source (cut : Cut) : Text := cut.constructs.flatMap Construct.source ++ cut.tail

end Cut

end DocTemplate
