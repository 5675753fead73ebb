import DocTemplate.Proofs.Node.Down
import DocTemplate.Proofs.Node.Onto

/-!
# The trees of blocks

Tokens that make a tree of their own make the same one between the statements of a block, as many
lines further down as the block puts in front of them. A block around such tokens therefore has one
node, with the tree of the tokens inside.
-/

namespace DocTemplate

namespace Builder

/-- A statement that is obeyed comes first, then the run goes on behind it. -/
theorem acceptAll_cons_of_obeys {b b' : Builder} {location : Location} {tag : Tag} {k : Keyword}
    (hkind : tag.kind = .statement k) (h : Obeys tag (location.after tag.lead) k b b')
    (rest : List Token) :
    b.acceptAll location (.tag tag :: rest) = b'.acceptAll (location.after tag.source) rest := by
  rw [acceptAll, (accept_statement_eq_ok_iff hkind).mpr h]
  rfl

/-- Tokens that make a tree put it behind the nodes of the innermost open block. -/
theorem acceptAll_of_ofTokens {tokens : List Token} {nodes : List Node}
    (h : Node.ofTokens tokens = .ok nodes) (c : Builder) (n : Nat) :
    c.acceptAll (Location.start.down n) tokens =
      .ok ⟨addNodes c.body (Node.downAll n nodes).reverse, c.frames⟩ := by
  obtain ⟨⟨body, frames⟩, hrun, hfinish⟩ := ofTokens_eq_ok_iff.mp h
  obtain ⟨hframes, hbody⟩ := finish_eq_ok_iff.mp hfinish
  dsimp only at hframes hbody
  subst hframes hbody
  rw [← start_onto c, acceptAll_onto (acceptAll_start_down hrun n) c, Node.downAll_reverse,
    List.reverse_reverse]
  rfl

end Builder

open Builder

/-- The tree of the inside of a block, `n` lines further down. -/
def Node.inside (n : Nat) (nodes : List Node) : List Node := Node.joinAll [] (Node.downAll n nodes)

/-- The inside of a block is shown as it is on its own, and its failures are further down. -/
theorem Node.renderAll_inside (n : Nat) (filters : Filters) (scope : Scope) (nodes : List Node) :
    Node.renderAll filters scope (Node.inside n nodes) =
      (Node.renderAll filters scope nodes).mapError (Failure.down n) := by
  rw [inside, renderAll_joinAll, renderAll_downAll, renderAll]
  cases Node.renderAll filters scope nodes <;> rfl

section Blocks

variable {opening closing : Tag} {inner : List Token} {nodes : List Node} {n : Nat}
  (hinner : Node.ofTokens inner = .ok nodes)
  (hplace : Location.start.after opening.source = Location.start.down n)

include hinner hplace

/-- A loop around tokens that make a tree has this tree inside. -/
theorem ofTokens_loop {head : LoopHead} (hopen : opening.kind = .statement .loop)
    (hhead : LoopHead.ofText? opening.content = some head)
    (hclose : closing.kind = .statement .endLoop)
    (hcontent : closing.content = Keyword.endLoop.toText) :
    Node.ofTokens (.tag opening :: (inner ++ [.tag closing])) =
      .ok [.loop head (if opening.isolated then .block else .inline) (Node.inside n nodes)] := by
  rw [Node.ofTokens, acceptAll_cons_of_obeys hopen (.openLoop hhead), acceptAll_append, hplace,
    acceptAll_of_ofTokens hinner]
  dsimp only [openBlock]
  rw [acceptAll_cons_of_obeys hclose (.closeLoop hcontent)]
  rfl

/-- A condition around tokens that make a tree has this tree in its first branch. -/
theorem ofTokens_condition {condition : Path} (hopen : opening.kind = .statement .condition)
    (hcondition : conditionOfText? opening.content = some condition)
    (hclose : closing.kind = .statement .endCondition)
    (hcontent : closing.content = Keyword.endCondition.toText) :
    Node.ofTokens (.tag opening :: (inner ++ [.tag closing])) =
      .ok [.conditional condition (Node.inside n nodes) []] := by
  rw [Node.ofTokens, acceptAll_cons_of_obeys hopen (.openCondition hcondition), acceptAll_append,
    hplace, acceptAll_of_ofTokens hinner]
  dsimp only [openBlock]
  rw [acceptAll_cons_of_obeys hclose (.closeConsequent hcontent)]
  rfl

/-- A condition around two lists of tokens that make trees has these trees in its branches. -/
theorem ofTokens_condition_alternative {separator : Tag} {inner' : List Token}
    {nodes' : List Node} {n' : Nat} {condition : Path}
    (hinner' : Node.ofTokens inner' = .ok nodes')
    (hplace' : Location.start.after
      (opening.source ++ inner.flatMap Token.source ++ separator.source) = Location.start.down n')
    (hopen : opening.kind = .statement .condition)
    (hcondition : conditionOfText? opening.content = some condition)
    (hseparate : separator.kind = .statement .alternative)
    (hcontent : separator.content = Keyword.alternative.toText)
    (hclose : closing.kind = .statement .endCondition)
    (hcontent' : closing.content = Keyword.endCondition.toText) :
    Node.ofTokens (.tag opening :: (inner ++ .tag separator :: (inner' ++ [.tag closing]))) =
      .ok [.conditional condition (Node.inside n nodes) (Node.inside n' nodes')] := by
  rw [Location.after_append, Location.after_append, hplace] at hplace'
  rw [Node.ofTokens, acceptAll_cons_of_obeys hopen (.openCondition hcondition), acceptAll_append,
    hplace, acceptAll_of_ofTokens hinner]
  dsimp only [openBlock]
  rw [acceptAll_cons_of_obeys hseparate (.alternative hcontent), acceptAll_append, hplace',
    acceptAll_of_ofTokens hinner']
  dsimp only
  rw [acceptAll_cons_of_obeys hclose (.closeAlternative hcontent')]
  rfl

end Blocks

end DocTemplate
