import DocTemplate.Node.Render
import DocTemplate.Proofs.Location
import DocTemplate.Proofs.Node.Build

/-!
# Trees of documents further down

If all locations in a document lie some lines further down, so do those in its tree and those of its
failures, and nothing else changes: neither the text that is shown nor the cause of a failure.
-/

namespace DocTemplate

mutual

/-- The node with its locations `n` lines further down. -/
def Node.down (n : Nat) : Node → Node
  | .text t => .text t
  | .interpolation i => .interpolation { i with location := i.location.down n }
  | .loop head layout body => .loop head layout (Node.downAll n body)
  | .conditional condition consequent alternative =>
    .conditional condition (Node.downAll n consequent) (Node.downAll n alternative)

/-- The nodes with their locations `n` lines further down. -/
def Node.downAll (n : Nat) : List Node → List Node
  | [] => []
  | node :: rest => node.down n :: Node.downAll n rest

end

/-- Nodes go down one by one. -/
theorem Node.downAll_eq_map (n : Nat) (nodes : List Node) :
    Node.downAll n nodes = nodes.map (Node.down n) := by
  induction nodes with
  | nil => rfl
  | cons node rest ih => rw [downAll, ih, List.map_cons]

/-- The order of nodes does not matter for how far down they are. -/
theorem Node.downAll_reverse (n : Nat) (nodes : List Node) :
    Node.downAll n nodes.reverse = (Node.downAll n nodes).reverse := by
  rw [downAll_eq_map, downAll_eq_map, List.map_reverse]

/-! ## Rendering -/

/-- Errors may be changed before or after the items are gone through. -/
theorem mapM_mapError {α β ε ε' : Type} (g : ε → ε') (f : α → Except ε β) (items : List α) :
    items.mapM (fun item => (f item).mapError g) = (items.mapM f).mapError g := by
  induction items with
  | nil => rfl
  | cons item items ih =>
    rw [List.mapM_cons, List.mapM_cons, ih]
    cases f item with
    | error e => rfl
    | ok y => cases items.mapM f <;> rfl

/-- An interpolation further down shows the same text. -/
theorem Scope.interpolate_down (n : Nat) (scope : Scope) (filters : Filters) (i : Interpolation) :
    scope.interpolate filters { i with location := i.location.down n } =
      (scope.interpolate filters i).mapError (Failure.down n) := by
  unfold interpolate
  dsimp only
  split <;> rfl

mutual

/-- A node further down renders as the same node above, and its failures are further down. -/
theorem Node.render_down (n : Nat) (filters : Filters) (scope : Scope) (node : Node) :
    (node.down n).render filters scope = (node.render filters scope).mapError (Failure.down n) := by
  cases node with
  | text t => rfl
  | interpolation i => exact scope.interpolate_down n filters i
  | loop head layout body =>
    rw [down, render, render]
    simp only [Node.renderAll_downAll n filters _ body, mapM_mapError]
    cases (scope.items head.iterable).mapM fun item =>
      Node.renderAll filters (scope.bind head.name item) body <;> rfl
  | conditional condition consequent alternative =>
    rw [down, render, render, Node.renderAll_downAll n filters scope consequent,
      Node.renderAll_downAll n filters scope alternative]
    split <;> rfl

/-- Nodes further down render as the same nodes above, and their failures are further down. -/
theorem Node.renderAll_downAll (n : Nat) (filters : Filters) (scope : Scope) (nodes : List Node) :
    Node.renderAll filters scope (Node.downAll n nodes) =
      (Node.renderAll filters scope nodes).mapError (Failure.down n) := by
  cases nodes with
  | nil => rfl
  | cons node rest =>
    rw [downAll, renderAll, renderAll, Node.render_down n filters scope node,
      Node.renderAll_downAll n filters scope rest]
    cases node.render filters scope with
    | error failure => rfl
    | ok front => cases Node.renderAll filters scope rest <;> rfl

end

/-! ## Building -/

/-- The open block with the locations in it `n` lines further down. -/
def OpenBlock.down (n : Nat) : OpenBlock → OpenBlock
  | loop head layout => loop head layout
  | consequent condition => consequent condition
  | alternative condition nodes => alternative condition (Node.downAll n nodes)

/-- The frame with its locations `n` lines further down. -/
def Frame.down (n : Nat) (f : Frame) : Frame :=
  ⟨f.block.down n, f.tag, f.location.down n, Node.downAll n f.outer⟩

namespace Builder

/-- The tree in the making with its locations `n` lines further down. -/
def down (n : Nat) (b : Builder) : Builder := ⟨Node.downAll n b.body, b.frames.map (Frame.down n)⟩

/-- Text is added further down as above. -/
theorem pushText_down (n : Nat) (b : Builder) (t : Text) :
    (b.down n).pushText t = (b.pushText t).down n := by
  unfold pushText down
  congr 1
  unfold addText
  split
  · rfl
  · cases b.body with
    | nil => rfl
    | cons node rest => cases node <;> rfl

/-- An interpolation is added further down as above. -/
theorem interpolate_down (n : Nat) (b : Builder) (tag : Tag) (location : Location) :
    (b.down n).interpolate tag (location.down n) = (b.interpolate tag location).down n := by
  unfold interpolate
  cases Pipe.ofText? tag.content with
  | some pipe => rfl
  | none => exact pushText_down n b tag.raw

/-- How far down a block is does not change by which statement it was entered. -/
theorem innermost?_down (n : Nat) (b : Builder) : (b.down n).innermost? = b.innermost? := by
  obtain ⟨body, frames⟩ := b
  rcases frames with _ | ⟨⟨block, opening, place, outer⟩, rest⟩
  · rfl
  · cases block <;> rfl

/-- A step further down is the same step as above. -/
theorem Obeys.down {n : Nat} {b b' : Builder} {k : Keyword} {tag : Tag} {location : Location}
    (h : Obeys tag location k b b') :
    Obeys tag (location.down n) k (b.down n) (b'.down n) := by
  cases h with
  | openLoop h => exact .openLoop h
  | openCondition h => exact .openCondition h
  | alternative h =>
    simp only [Builder.down, List.map_cons, Frame.down, OpenBlock.down, Node.downAll,
      Node.downAll_reverse]
    exact .alternative h
  | closeLoop h =>
    simp only [Builder.down, List.map_cons, Frame.down, OpenBlock.down, Node.downAll, Node.down,
      Node.downAll_reverse]
    exact .closeLoop h
  | closeConsequent h =>
    simp only [Builder.down, List.map_cons, Frame.down, OpenBlock.down, Node.downAll, Node.down,
      Node.downAll_reverse]
    exact .closeConsequent h
  | closeAlternative h =>
    simp only [Builder.down, List.map_cons, Frame.down, OpenBlock.down, Node.downAll, Node.down,
      Node.downAll_reverse]
    exact .closeAlternative h

/-- A token is accepted further down as above, and refused for the same reason. -/
theorem accept_down (n : Nat) (b : Builder) (location : Location) (token : Token) :
    (b.down n).accept (location.down n) token =
      match b.accept location token with
      | .ok b' => .ok (b'.down n)
      | .error failure => .error (failure.down n) := by
  cases token with
  | text t => rw [accept, accept, pushText_down]
  | escaped literal => rw [accept, accept, pushText_down]
  | tag tag =>
    rw [accept, accept, Location.after_down]
    cases tag.kind with
    | interpolation =>
      dsimp only
      rw [interpolate_down]
    | statement k =>
      dsimp only
      cases hobey : b.obey k tag (location.after tag.lead) with
      | ok b' => rw [obey_eq_ok_iff.mpr (obey_eq_ok_iff.mp hobey).down]
      | error problem =>
        rw [obey_eq_error_iff.mpr ((innermost?_down n b) ▸ obey_eq_error_iff.mp hobey)]
        rfl

/-- Tokens are accepted further down as above, and the first that is refused is so for the same
reason. -/
theorem acceptAll_down (n : Nat) (b : Builder) (location : Location) (tokens : List Token) :
    (b.down n).acceptAll (location.down n) tokens =
      match b.acceptAll location tokens with
      | .ok b' => .ok (b'.down n)
      | .error failure => .error (failure.down n) := by
  induction tokens generalizing b location with
  | nil => rfl
  | cons token tokens ih =>
    rw [acceptAll, acceptAll, accept_down]
    cases b.accept location token with
    | error failure => rfl
    | ok b' =>
      dsimp only
      rw [Location.after_down, ih]

/-- A run from the start that comes through does so from further down. -/
theorem acceptAll_start_down {tokens : List Token} {b : Builder}
    (h : start.acceptAll .start tokens = .ok b) (n : Nat) :
    start.acceptAll (Location.start.down n) tokens = .ok (b.down n) := by
  have hmoved := acceptAll_down n .start .start tokens
  rwa [h] at hmoved

/-- A run from the start that fails does so from further down. -/
theorem acceptAll_start_down_of_error {tokens : List Token} {failure : Failure}
    (h : start.acceptAll .start tokens = .error failure) (n : Nat) :
    start.acceptAll (Location.start.down n) tokens = .error (failure.down n) := by
  have hmoved := acceptAll_down n .start .start tokens
  rwa [h] at hmoved

/-- A tree is finished further down as above. -/
theorem finish_down (n : Nat) (b : Builder) :
    (b.down n).finish =
      match b.finish with
      | .ok nodes => .ok (Node.downAll n nodes)
      | .error failure => .error (failure.down n) := by
  obtain ⟨body, frames⟩ := b
  rcases frames with _ | ⟨⟨block, opening, place, outer⟩, rest⟩
  · exact congrArg Except.ok (Node.downAll_reverse n body).symm
  · cases block <;> rfl

end Builder

end DocTemplate
