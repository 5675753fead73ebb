import DocTemplate.Node
import DocTemplate.Problem
import DocTemplate.Token

/-!
# Building document trees

Tokens are read in order. What is open is kept as a stack of frames, each with the nodes that stand
around its block, so that a closing statement puts the finished block behind them; the depth of a
document is bounded by nothing. Neighbouring texts become one node.
-/

namespace DocTemplate

/-- A block that has been opened but not closed. -/
inductive OpenBlock where
  /-- A loop. -/
  | loop (head : LoopHead) (layout : LoopLayout)
  /-- A condition in front of its alternative. -/
  | consequent (condition : Path)
  /-- A condition in its alternative, with the nodes of the finished first branch. -/
  | alternative (condition : Path) (consequent : List Node)

/-- The problem of a block that is never closed. -/
def OpenBlock.unclosed : OpenBlock → Problem
  | loop _ _ => .unclosedLoop
  | consequent _ | alternative _ _ => .unclosedCondition

/-- An open block with what stands around it. -/
structure Frame where
  /-- The block. -/
  block : OpenBlock
  /-- The tag that opened it. -/
  tag : Text
  /-- Where that tag stands. -/
  location : Location
  /-- The nodes in front of the block, the latest first. -/
  outer : List Node

/-- A tree in the making. -/
structure Builder where
  /-- The nodes of the innermost open block so far, the latest first. -/
  body : List Node
  /-- The open blocks, the innermost first. -/
  frames : List Frame

namespace Builder

/-- Nothing has been read. -/
def start : Builder := ⟨[], []⟩

/-- Adds text to nodes of which the latest is the first: it joins a text, and no text is empty. -/
def addText (t : Text) (body : List Node) : List Node :=
  if t = [] then body
  else match body with
    | .text before :: rest => .text (before ++ t) :: rest
    | _ => .text t :: body

/-- Text in the innermost open block. -/
def pushText (b : Builder) (t : Text) : Builder := { b with body := addText t b.body }

/-- A node in the innermost open block. -/
def pushNode (b : Builder) (n : Node) : Builder := { b with body := n :: b.body }

/-- Opens a block. -/
def openBlock (b : Builder) (block : OpenBlock) (tag : Text) (location : Location) : Builder :=
  ⟨[], ⟨block, tag, location, b.body⟩ :: b.frames⟩

/-- An interpolation; one that names no path with filters is text. -/
def interpolate (b : Builder) (tag : Tag) (location : Location) : Builder :=
  match Pipe.ofText? tag.content with
  | some pipe => b.pushNode (.interpolation ⟨pipe, tag.raw, location⟩)
  | none => b.pushText tag.raw

/-- A statement. It has to be well formed, and then it has to fit the innermost open block. -/
def obey (b : Builder) (k : Keyword) (tag : Tag) (location : Location) :
    Except Problem Builder :=
  match k with
  | .loop =>
    match LoopHead.ofText? tag.content with
    | some head =>
      .ok (b.openBlock (.loop head (if tag.isolated then .block else .inline)) tag.raw location)
    | none => .error (.malformed k)
  | .condition =>
    match conditionOfText? tag.content with
    | some condition => .ok (b.openBlock (.consequent condition) tag.raw location)
    | none => .error (.malformed k)
  | .alternative =>
    if tag.content ≠ k.toText then .error (.malformed k)
    else match b.frames with
      | ⟨.consequent condition, opening, place, outer⟩ :: rest =>
        .ok ⟨[], ⟨.alternative condition b.body.reverse, opening, place, outer⟩ :: rest⟩
      | ⟨.alternative _ _, _, _, _⟩ :: _ => .error .duplicateAlternative
      | _ => .error .unmatchedAlternative
  | .endLoop =>
    if tag.content ≠ k.toText then .error (.malformed k)
    else match b.frames with
      | ⟨.loop head layout, _, _, outer⟩ :: rest =>
        .ok ⟨.loop head layout b.body.reverse :: outer, rest⟩
      | _ => .error .unmatchedEndLoop
  | .endCondition =>
    if tag.content ≠ k.toText then .error (.malformed k)
    else match b.frames with
      | ⟨.consequent condition, _, _, outer⟩ :: rest =>
        .ok ⟨.conditional condition b.body.reverse [] :: outer, rest⟩
      | ⟨.alternative condition consequent, _, _, outer⟩ :: rest =>
        .ok ⟨.conditional condition consequent b.body.reverse :: outer, rest⟩
      | _ => .error .unmatchedEndCondition

/-- Reads a token that starts at a location. -/
def accept (b : Builder) (location : Location) : Token → Except Failure Builder
  | .text t => .ok (b.pushText t)
  | .escaped literal => .ok (b.pushText literal)
  | .tag tag =>
    let place := location.after tag.lead
    match tag.kind with
    | .interpolation => .ok (b.interpolate tag place)
    | .statement k =>
      match b.obey k tag place with
      | .ok b => .ok b
      | .error problem => .error ⟨place, .misplaced tag.raw problem⟩

/-- The finished tree: every block has to be closed, and the innermost open one is reported. -/
def finish (b : Builder) : Except Failure (List Node) :=
  match b.frames with
  | [] => .ok b.body.reverse
  | frame :: _ => .error ⟨frame.location, .misplaced frame.tag frame.block.unclosed⟩

/-- Reads tokens of which the first starts at a location. -/
def acceptAll (b : Builder) (location : Location) : List Token → Except Failure Builder
  | [] => .ok b
  | token :: rest =>
    match b.accept location token with
    | .ok b => b.acceptAll (location.after token.source) rest
    | .error failure => .error failure

end Builder

/-- The tree of a list of tokens. -/
def Node.ofTokens (tokens : List Token) : Except Failure (List Node) :=
  (Builder.start.acceptAll .start tokens).bind Builder.finish

end DocTemplate
