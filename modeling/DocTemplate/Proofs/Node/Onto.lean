import DocTemplate.Node.Render
import DocTemplate.Proofs.Node.Build

/-!
# Trees in the making on top of each other

What is built behind some nodes inside some open blocks is what is built alone, put behind these
nodes and into these blocks: the only thing that may touch what is below is a text, which joins a
text in front of it. A statement that is refused alone may still fit into the blocks below, so a run
that fails alone has to fail on top of nodes only if no block is open below.
-/

namespace DocTemplate

/-- Adds nodes to nodes, the latest first in both of them; texts that meet are joined. -/
def addNodes (base : List Node) : List Node → List Node
  | [] => base
  | .text t :: rest => Builder.addText t (addNodes base rest)
  | node :: rest => node :: addNodes base rest

namespace Builder

/-- Adding a text in two parts is adding it at once. -/
theorem addText_append (s t : Text) (body : List Node) :
    addText t (addText s body) = addText (s ++ t) body := by
  unfold addText
  by_cases hs : s = []
  · simp [hs]
  · by_cases ht : t = []
    · simp [ht]
    · rw [if_neg ht, if_neg hs, if_neg (by simp [hs])]
      rcases body with _ | ⟨node, rest⟩
      · rfl
      · cases node <;> simp

/-- Pushing a text in two parts is pushing it at once. -/
theorem pushText_pushText (b : Builder) (s t : Text) :
    (b.pushText s).pushText t = b.pushText (s ++ t) :=
  congrArg (Builder.mk · b.frames) (addText_append s t b.body)

/-- A text joins the nodes on top. -/
theorem addNodes_addText (base : List Node) (t : Text) (body : List Node) :
    addNodes base (addText t body) = addText t (addNodes base body) := by
  by_cases ht : t = []
  · simp [addText, ht]
  · rcases body with _ | ⟨node, rest⟩
    · simp [addText, ht, addNodes]
    · cases node with
      | text before =>
        have hjoin : addText t (.text before :: rest) = .text (before ++ t) :: rest := by
          simp [addText, ht]
        rw [hjoin, addNodes, addNodes, addText_append]
      | interpolation i => simp [addText, ht, addNodes]
      | loop head layout nodes => simp [addText, ht, addNodes]
      | conditional condition consequent alternative => simp [addText, ht, addNodes]

/-- Nodes and open blocks with `c` below: the nodes outside of all blocks come behind the nodes of
the innermost open block of `c`. -/
def stack (c : Builder) (body : List Node) : List Frame → Builder
  | [] => ⟨addNodes c.body body, c.frames⟩
  | frame :: rest =>
    ⟨body,
      { frame with outer := (stack c frame.outer rest).body } :: (stack c frame.outer rest).frames⟩

/-- The tree in the making with `c` below. -/
def onto (b c : Builder) : Builder := stack c b.body b.frames

/-- Nothing on top leaves what is below. -/
theorem start_onto (c : Builder) : start.onto c = c := rfl

/-- Text is added on top. -/
theorem pushText_onto (b c : Builder) (t : Text) :
    (b.onto c).pushText t = (b.pushText t).onto c := by
  obtain ⟨body, frames⟩ := b
  cases frames with
  | nil =>
    simp only [onto, stack, pushText]
    rw [addNodes_addText]
  | cons frame rest => rfl

/-- An interpolation is added on top. -/
theorem interpolate_onto (b c : Builder) (tag : Tag) (location : Location) :
    (b.onto c).interpolate tag location = (b.interpolate tag location).onto c := by
  unfold interpolate
  cases Pipe.ofText? tag.content with
  | some pipe =>
    obtain ⟨body, frames⟩ := b
    cases frames <;> rfl
  | none => exact pushText_onto b c tag.raw

private theorem stack_loop (c : Builder) (head : LoopHead) (layout : LoopLayout)
    (nodes outer : List Node) (frames : List Frame) :
    stack c (.loop head layout nodes :: outer) frames =
      ⟨.loop head layout nodes :: (stack c outer frames).body, (stack c outer frames).frames⟩ := by
  cases frames <;> rfl

private theorem stack_conditional (c : Builder) (condition : Path)
    (consequent alternative outer : List Node) (frames : List Frame) :
    stack c (.conditional condition consequent alternative :: outer) frames =
      ⟨.conditional condition consequent alternative :: (stack c outer frames).body,
        (stack c outer frames).frames⟩ := by
  cases frames <;> rfl

/-- A step is the same step with something below. -/
theorem Obeys.onto {b b' : Builder} {k : Keyword} {tag : Tag} {location : Location}
    (h : Obeys tag location k b b') (c : Builder) :
    Obeys tag location k (b.onto c) (b'.onto c) := by
  cases h with
  | openLoop h => exact .openLoop h
  | openCondition h => exact .openCondition h
  | alternative h => exact .alternative h
  | closeLoop h =>
    rw [Builder.onto, Builder.onto, stack_loop]
    exact .closeLoop h
  | closeConsequent h =>
    rw [Builder.onto, Builder.onto, stack_conditional]
    exact .closeConsequent h
  | closeAlternative h =>
    rw [Builder.onto, Builder.onto, stack_conditional]
    exact .closeAlternative h

/-- A token that is accepted alone is accepted with something below. -/
theorem accept_onto {b b' : Builder} {location : Location} {token : Token}
    (h : b.accept location token = .ok b') (c : Builder) :
    (b.onto c).accept location token = .ok (b'.onto c) := by
  cases token with
  | text t =>
    cases h
    rw [accept, pushText_onto]
  | escaped literal =>
    cases h
    rw [accept, pushText_onto]
  | tag tag =>
    cases hkind : tag.kind with
    | interpolation =>
      simp only [accept, hkind, Except.ok.injEq] at h ⊢
      rw [interpolate_onto, h]
    | statement k =>
      exact (accept_statement_eq_ok_iff hkind).mpr
        (((accept_statement_eq_ok_iff hkind).mp h).onto c)

/-- Tokens that are accepted alone are accepted with something below. -/
theorem acceptAll_onto {b b' : Builder} {location : Location} {tokens : List Token}
    (h : b.acceptAll location tokens = .ok b') (c : Builder) :
    (b.onto c).acceptAll location tokens = .ok (b'.onto c) := by
  induction tokens generalizing b location with
  | nil =>
    cases h
    rfl
  | cons token tokens ih =>
    obtain ⟨b₁, haccept, hrest⟩ := acceptAll_cons_eq_ok_iff.mp h
    exact acceptAll_cons_eq_ok_iff.mpr ⟨b₁.onto c, accept_onto haccept c, ih hrest⟩

/-! ## Failures on top of nodes -/

/-- Nodes below do not change by which statement a block was entered. -/
theorem innermost?_onto {c : Builder} (hc : c.frames = []) (b : Builder) :
    (b.onto c).innermost? = b.innermost? := by
  obtain ⟨body, frames⟩ := b
  cases frames with
  | nil =>
    rw [onto, stack, innermost?, hc]
    rfl
  | cons frame rest => rfl

/-- A token that is refused alone is refused for the same reason on top of nodes. -/
theorem Refuses.onto {b c : Builder} {location : Location} {token : Token} {failure : Failure}
    (h : b.Refuses location token failure) (hc : c.frames = []) :
    (b.onto c).Refuses location token failure := by
  cases h with
  | statement hkind hrefusal =>
    rw [← innermost?_onto hc] at hrefusal
    exact .statement hkind hrefusal

/-- Tokens of which one is refused alone fail for the same reason on top of nodes. -/
theorem acceptAll_onto_of_error {b c : Builder} {location : Location} {tokens : List Token}
    {failure : Failure} (h : b.acceptAll location tokens = .error failure) (hc : c.frames = []) :
    (b.onto c).acceptAll location tokens = .error failure := by
  obtain ⟨front, token, back, c', htokens, hfront, hrefuses⟩ := acceptAll_eq_error_iff.mp h
  exact acceptAll_eq_error_iff.mpr
    ⟨front, token, back, c'.onto c, htokens, acceptAll_onto hfront c, hrefuses.onto hc⟩

/-- A tree is finished exactly if no block is open. -/
theorem finish_eq_ok_iff {b : Builder} {nodes : List Node} :
    b.finish = .ok nodes ↔ b.frames = [] ∧ b.body.reverse = nodes := by
  obtain ⟨body, frames⟩ := b
  cases frames with
  | nil => simp [finish]
  | cons frame rest => simp [finish]

end Builder

/-- Nodes one behind the other; texts that meet are joined. -/
def Node.joinAll (front back : List Node) : List Node :=
  (addNodes front.reverse back.reverse).reverse

/-- On top of a finished tree another one is finished behind it, and fails as it does alone. -/
theorem Builder.finish_onto {b c : Builder} {front : List Node} (hc : c.finish = .ok front) :
    (b.onto c).finish =
      match b.finish with
      | .ok back => .ok (Node.joinAll front back)
      | .error failure => .error failure := by
  obtain ⟨hframes, rfl⟩ := finish_eq_ok_iff.mp hc
  obtain ⟨body, frames⟩ := b
  cases frames with
  | nil => simp [onto, stack, finish, hframes, Node.joinAll]
  | cons frame rest => rfl

/-! ## Rendering -/

namespace Node

variable (filters : Filters) (scope : Scope)

/-- Nodes are rendered one behind the other. -/
theorem renderAll_append (front back : List Node) :
    renderAll filters scope (front ++ back) =
      (do return (← renderAll filters scope front) ++ (← renderAll filters scope back)) := by
  induction front with
  | nil =>
    rw [List.nil_append, renderAll]
    cases renderAll filters scope back <;> rfl
  | cons node rest ih =>
    rw [List.cons_append, renderAll, renderAll, ih]
    cases node.render filters scope with
    | error failure => rfl
    | ok t =>
      cases renderAll filters scope rest with
      | error failure => rfl
      | ok t' =>
        cases renderAll filters scope back with
        | error failure => rfl
        | ok t'' => exact congrArg Except.ok (List.append_assoc t t' t'').symm

/-- One node alone is shown as it is. -/
theorem renderAll_singleton (node : Node) :
    renderAll filters scope [node] = node.render filters scope := by
  rw [renderAll, renderAll]
  cases node.render filters scope with
  | error failure => rfl
  | ok t => exact congrArg Except.ok (List.append_nil t)

private theorem renderAll_reverse_cons (node : Node) (body : List Node) :
    renderAll filters scope (node :: body).reverse =
      (do return (← renderAll filters scope body.reverse) ++ (← node.render filters scope)) := by
  rw [List.reverse_cons, renderAll_append]
  cases renderAll filters scope body.reverse with
  | error failure => rfl
  | ok t => rw [renderAll_singleton]

/-- Text that is added is shown last, whether it joins a text or not. -/
theorem renderAll_addText (t : Text) (body : List Node) :
    renderAll filters scope (Builder.addText t body).reverse =
      (do return (← renderAll filters scope body.reverse) ++ t) := by
  unfold Builder.addText
  by_cases ht : t = []
  · subst ht
    rw [if_pos rfl]
    cases renderAll filters scope body.reverse with
    | error failure => rfl
    | ok shown => exact congrArg Except.ok (List.append_nil shown).symm
  · rw [if_neg ht]
    split
    · rename_i before rest
      rw [renderAll_reverse_cons, renderAll_reverse_cons]
      cases renderAll filters scope rest.reverse with
      | error failure => rfl
      | ok shown => exact congrArg Except.ok (List.append_assoc shown before t).symm
    · exact renderAll_reverse_cons filters scope (.text t) body

private theorem renderAll_addNodes_cons (base : List Node) (node : Node) (body : List Node) :
    renderAll filters scope (addNodes base (node :: body)).reverse =
      (do return (← renderAll filters scope (addNodes base body).reverse) ++
        (← node.render filters scope)) := by
  cases node with
  | text t => exact renderAll_addText filters scope t (addNodes base body)
  | interpolation i => exact renderAll_reverse_cons filters scope _ (addNodes base body)
  | loop head layout nodes => exact renderAll_reverse_cons filters scope _ (addNodes base body)
  | conditional condition consequent alternative =>
    exact renderAll_reverse_cons filters scope _ (addNodes base body)

private theorem renderAll_addNodes (base body : List Node) :
    renderAll filters scope (addNodes base body).reverse =
      (do return (← renderAll filters scope base.reverse) ++
        (← renderAll filters scope body.reverse)) := by
  induction body with
  | nil =>
    rw [addNodes, List.reverse_nil, renderAll]
    cases renderAll filters scope base.reverse with
    | error failure => rfl
    | ok shown => exact congrArg Except.ok (List.append_nil shown).symm
  | cons node body ih =>
    rw [renderAll_addNodes_cons, ih, renderAll_reverse_cons]
    cases renderAll filters scope base.reverse with
    | error failure => rfl
    | ok front =>
      cases renderAll filters scope body.reverse with
      | error failure => rfl
      | ok back =>
        cases node.render filters scope with
        | error failure => rfl
        | ok last => exact congrArg Except.ok (List.append_assoc front back last)

/-- Joining texts that meet does not change what is shown. -/
theorem renderAll_joinAll (front back : List Node) :
    renderAll filters scope (joinAll front back) =
      (do return (← renderAll filters scope front) ++ (← renderAll filters scope back)) := by
  rw [joinAll, renderAll_addNodes, List.reverse_reverse, List.reverse_reverse]

end Node

end DocTemplate
