import DocTemplate.Proofs.Node.Build
import DocTemplate.Proofs.Token.Crlf

/-!
# The texts of a tree

Every text of a tree is made of texts that its tokens give, one joined to the other. So what holds
of these and is kept by joining holds of all texts of the tree, however deep they stand.
-/

namespace DocTemplate

mutual

/-- The texts in a node. -/
def Node.texts : Node → List Text
  | .text t => [t]
  | .interpolation _ => []
  | .loop _ _ body => Node.textsAll body
  | .conditional _ consequent alternative =>
    Node.textsAll consequent ++ Node.textsAll alternative

/-- The texts in nodes. -/
def Node.textsAll : List Node → List Text
  | [] => []
  | node :: rest => node.texts ++ Node.textsAll rest

end

/-- The texts in nodes are those in each of them. -/
theorem Node.mem_textsAll {t : Text} {nodes : List Node} :
    t ∈ textsAll nodes ↔ ∃ node ∈ nodes, t ∈ node.texts := by
  induction nodes with
  | nil => simp [textsAll]
  | cons node rest ih => simp [textsAll, ih]

@[simp] theorem Node.mem_textsAll_reverse {t : Text} {nodes : List Node} :
    t ∈ textsAll nodes.reverse ↔ t ∈ textsAll nodes := by
  simp [mem_textsAll]

/-- The texts in the finished part of an open block. -/
def OpenBlock.texts : OpenBlock → List Text
  | loop _ _ | consequent _ => []
  | alternative _ nodes => Node.textsAll nodes

@[simp] theorem OpenBlock.texts_loop (head : LoopHead) (layout : LoopLayout) :
    (loop head layout).texts = [] := rfl

@[simp] theorem OpenBlock.texts_consequent (condition : Path) :
    (consequent condition).texts = [] := rfl

@[simp] theorem OpenBlock.texts_alternative (condition : Path) (nodes : List Node) :
    (alternative condition nodes).texts = Node.textsAll nodes := rfl

/-- The texts in an open block and around it. -/
def Frame.texts (frame : Frame) : List Text := frame.block.texts ++ Node.textsAll frame.outer

namespace Builder

/-- The texts in a tree in the making. -/
def texts (b : Builder) : List Text := Node.textsAll b.body ++ b.frames.flatMap Frame.texts

/-- Statements bring no texts. -/
theorem Obeys.texts_subset {b b' : Builder} {k : Keyword} {tag : Tag} {location : Location}
    (h : Obeys tag location k b b') : b'.texts ⊆ b.texts := by
  intro t ht
  cases h with
  | openLoop _ | openCondition _ =>
    simpa [texts, openBlock, Frame.texts, Node.textsAll] using ht
  | alternative _ => simpa [texts, Frame.texts, Node.textsAll] using ht
  | closeLoop _ | closeConsequent _ =>
    simpa [texts, Frame.texts, Node.textsAll, Node.texts] using ht
  | closeAlternative _ =>
    simpa [texts, Frame.texts, Node.textsAll, Node.texts, or_left_comm] using ht

/-- A text that is added either joins the latest one or stands for itself. -/
theorem forall_textsAll_addText {p : Text → Prop} (happend : ∀ s t, p s → p t → p (s ++ t))
    {body : List Node} (hbody : ∀ t ∈ Node.textsAll body, p t) {t : Text} (ht : p t) :
    ∀ t' ∈ Node.textsAll (addText t body), p t' := by
  unfold addText
  split
  · exact hbody
  · split
    · rename_i before rest
      rw [Node.textsAll, Node.texts, List.singleton_append, List.forall_mem_cons] at hbody ⊢
      exact ⟨happend before t hbody.1 ht, hbody.2⟩
    · rw [Node.textsAll, Node.texts, List.singleton_append, List.forall_mem_cons]
      exact ⟨ht, hbody⟩

section Tokens

variable {p : Text → Prop} (happend : ∀ s t, p s → p t → p (s ++ t))

include happend

/-- Text adds no other texts. -/
theorem forall_texts_pushText {b : Builder} (hb : ∀ t ∈ b.texts, p t) {t : Text} (ht : p t) :
    ∀ t' ∈ (b.pushText t).texts, p t' := by
  rw [texts, List.forall_mem_append] at hb ⊢
  exact ⟨forall_textsAll_addText happend hb.1 ht, hb.2⟩

/-- A token adds no other text than the one that it gives. -/
theorem forall_texts_accept {b b' : Builder} {location : Location} {token : Token}
    (h : b.accept location token = .ok b') (hb : ∀ t ∈ b.texts, p t) (htoken : p token.written) :
    ∀ t ∈ b'.texts, p t := by
  cases token with
  | text t =>
    cases h
    exact forall_texts_pushText happend hb htoken
  | escaped literal =>
    cases h
    exact forall_texts_pushText happend hb htoken
  | tag tag =>
    cases hkind : tag.kind with
    | interpolation =>
      simp only [accept, hkind, Except.ok.injEq] at h
      subst h
      unfold interpolate
      split
      · exact hb
      · exact forall_texts_pushText happend hb htoken
    | statement k =>
      have hobeys := (accept_statement_eq_ok_iff hkind).mp h
      exact fun t ht => hb t (hobeys.texts_subset ht)

/-- Tokens add no other texts than those that they give. -/
theorem forall_texts_acceptAll {b b' : Builder} {location : Location} {tokens : List Token}
    (h : b.acceptAll location tokens = .ok b') (hb : ∀ t ∈ b.texts, p t)
    (htokens : ∀ token ∈ tokens, p token.written) : ∀ t ∈ b'.texts, p t := by
  induction tokens generalizing b location with
  | nil =>
    cases h
    exact hb
  | cons token tokens ih =>
    obtain ⟨b₁, haccept, hrest⟩ := acceptAll_cons_eq_ok_iff.mp h
    obtain ⟨hfirst, htokens⟩ := List.forall_mem_cons.mp htokens
    exact ih hrest (forall_texts_accept happend haccept hb hfirst) htokens

end Tokens

end Builder

/-- What holds of the texts that tokens give, and is kept by joining, holds of all texts of their
tree. -/
theorem Node.forall_textsAll_of_ofTokens {p : Text → Prop}
    (happend : ∀ s t, p s → p t → p (s ++ t)) {tokens : List Token} {nodes : List Node}
    (h : Node.ofTokens tokens = .ok nodes) (htokens : ∀ token ∈ tokens, p token.written) :
    ∀ t ∈ textsAll nodes, p t := by
  obtain ⟨b, hrun, hfinish⟩ := Builder.ofTokens_eq_ok_iff.mp h
  have hb := Builder.forall_texts_acceptAll happend hrun nofun htokens
  intro t ht
  unfold Builder.finish at hfinish
  split at hfinish
  · cases hfinish
    exact hb t (List.mem_append_left _ (mem_textsAll_reverse.mp ht))
  · cases hfinish

end DocTemplate
