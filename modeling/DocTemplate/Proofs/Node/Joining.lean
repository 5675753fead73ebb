import DocTemplate.Engine
import DocTemplate.Proofs.Layout

/-!
# Rendering with other joins

A rendering is known by how it joins the iterations of a loop. However deep loops are nested, a join
that drops blanks only gives what plain concatenation gives, without some of its blanks, and it
fails where plain concatenation fails. Without loops the join does not matter.
-/

namespace DocTemplate

mutual

/-- The text of a node if the iterations of its loops are joined by `join`. -/
def Node.renderWith (join : LoopLayout → List Text → Text) (filters : Filters) (scope : Scope) :
    Node → Except Failure Text
  | .text t => .ok t
  | .interpolation i => scope.interpolate filters i
  | .loop head layout body => do
    let pieces ← (scope.items head.iterable).mapM fun item =>
      Node.renderAllWith join filters (scope.bind head.name item) body
    return join layout pieces
  | .conditional condition consequent alternative =>
    if scope.holds condition then Node.renderAllWith join filters scope consequent
    else Node.renderAllWith join filters scope alternative

/-- The text of nodes one behind the other if the iterations of loops are joined by `join`. -/
def Node.renderAllWith (join : LoopLayout → List Text → Text) (filters : Filters) (scope : Scope) :
    List Node → Except Failure Text
  | [] => .ok []
  | node :: rest => do
    let front ← Node.renderWith join filters scope node
    let back ← Node.renderAllWith join filters scope rest
    return front ++ back

end

/-- The join that puts the iterations of a loop one behind the other as they are. -/
def concatenate (_ : LoopLayout) (pieces : List Text) : Text := pieces.flatten

/-- Renders a template with loops that do nothing to their iterations. -/
def Template.renderPlainly (t : Template) (filters : Filters) (vars : Variables) :
    Except Failure Text :=
  Node.renderAllWith concatenate filters ⟨[], vars⟩ t.nodes

mutual

/-- Rendering joins by the layout of the loop. -/
theorem Node.renderWith_join (filters : Filters) (scope : Scope) (node : Node) :
    node.renderWith LoopLayout.join filters scope = node.render filters scope := by
  cases node with
  | text t => rfl
  | interpolation i => rfl
  | loop head layout body =>
    rw [renderWith, render]
    simp only [Node.renderAllWith_join _ _ body]
  | conditional condition consequent alternative =>
    rw [renderWith, render, Node.renderAllWith_join _ _ consequent,
      Node.renderAllWith_join _ _ alternative]

/-- Rendering joins by the layout of the loop, for nodes one behind the other. -/
theorem Node.renderAllWith_join (filters : Filters) (scope : Scope) (nodes : List Node) :
    Node.renderAllWith LoopLayout.join filters scope nodes =
      Node.renderAll filters scope nodes := by
  cases nodes with
  | nil => rfl
  | cons node rest =>
    rw [renderAllWith, renderAll, Node.renderWith_join _ _ node, Node.renderAllWith_join _ _ rest]

end

/-! ## Results that differ in blanks -/

/-- Two results agree but for blanks that the first one lacks: either both are texts, or both are
the same failure. -/
inductive AgreesUpToBlanks : Except Failure Text → Except Failure Text → Prop
  /-- One text is the other without some of its blanks. -/
  | ok {t whole : Text} (h : Thins t whole) : AgreesUpToBlanks (.ok t) (.ok whole)
  /-- Both fail in the same way. -/
  | error (failure : Failure) : AgreesUpToBlanks (.error failure) (.error failure)

namespace AgreesUpToBlanks

/-- A result agrees with itself. -/
theorem refl (result : Except Failure Text) : AgreesUpToBlanks result result := by
  cases result with
  | error failure => exact .error failure
  | ok t => exact .ok (.refl t)

/-- Results agree one behind the other if each of them does. -/
theorem append {front front' back back' : Except Failure Text}
    (hfront : AgreesUpToBlanks front front') (hback : AgreesUpToBlanks back back') :
    AgreesUpToBlanks (do return (← front) ++ (← back)) (do return (← front') ++ (← back')) := by
  cases hfront with
  | error failure => exact .error failure
  | ok hfront =>
    cases hback with
    | error failure => exact .error failure
    | ok hback => exact .ok (hfront.append hback)

private theorem mapM {f g : Value → Except Failure Text}
    (h : ∀ item, AgreesUpToBlanks (f item) (g item)) (items : List Value) :
    (∃ failure, items.mapM f = .error failure ∧ items.mapM g = .error failure) ∨
      ∃ pieces pieces', items.mapM f = .ok pieces ∧ items.mapM g = .ok pieces' ∧
        Thins pieces.flatten pieces'.flatten := by
  induction items with
  | nil => exact Or.inr ⟨[], [], rfl, rfl, .refl []⟩
  | cons item items ih =>
    rw [List.mapM_cons, List.mapM_cons]
    have hitem := h item
    generalize f item = result, g item = result' at hitem
    cases hitem with
    | error failure => exact Or.inl ⟨failure, rfl, rfl⟩
    | @ok t whole ht =>
      rcases ih with ⟨failure, hf, hg⟩ | ⟨pieces, pieces', hf, hg, hpieces⟩
      · rw [hf, hg]
        exact Or.inl ⟨failure, rfl, rfl⟩
      · rw [hf, hg]
        exact Or.inr ⟨t :: pieces, whole :: pieces', rfl, rfl, ht.append hpieces⟩

/-- A join that drops blanks only agrees with concatenation if the iterations agree. -/
theorem join {join : List Text → Text} (hjoin : ∀ pieces, Thins (join pieces) pieces.flatten)
    {f g : Value → Except Failure Text} (h : ∀ item, AgreesUpToBlanks (f item) (g item))
    (items : List Value) :
    AgreesUpToBlanks (do return join (← items.mapM f)) (do return (← items.mapM g).flatten) := by
  rcases mapM h items with ⟨failure, hf, hg⟩ | ⟨pieces, pieces', hf, hg, hpieces⟩
  · rw [hf, hg]
    exact .error failure
  · rw [hf, hg]
    exact .ok ((hjoin pieces).trans hpieces)

end AgreesUpToBlanks

section Join

variable {join : LoopLayout → List Text → Text}

mutual

/-- A node agrees with its plain rendering if joins drop blanks only. -/
theorem Node.renderWith_agreesUpToBlanks
    (hjoin : ∀ layout pieces, Thins (join layout pieces) pieces.flatten) (filters : Filters)
    (scope : Scope) (node : Node) :
    AgreesUpToBlanks (node.renderWith join filters scope)
      (node.renderWith concatenate filters scope) := by
  cases node with
  | text t => exact .refl _
  | interpolation i => exact .refl _
  | loop head layout body =>
    rw [renderWith, renderWith]
    apply AgreesUpToBlanks.join (hjoin layout)
    intro item
    exact Node.renderAllWith_agreesUpToBlanks hjoin filters (scope.bind head.name item) body
  | conditional condition consequent alternative =>
    rw [renderWith, renderWith]
    split
    · exact Node.renderAllWith_agreesUpToBlanks hjoin filters scope consequent
    · exact Node.renderAllWith_agreesUpToBlanks hjoin filters scope alternative

/-- Nodes one behind the other agree with their plain rendering if joins drop blanks only. -/
theorem Node.renderAllWith_agreesUpToBlanks
    (hjoin : ∀ layout pieces, Thins (join layout pieces) pieces.flatten) (filters : Filters)
    (scope : Scope) (nodes : List Node) :
    AgreesUpToBlanks (Node.renderAllWith join filters scope nodes)
      (Node.renderAllWith concatenate filters scope nodes) := by
  cases nodes with
  | nil => exact .refl _
  | cons node rest =>
    rw [renderAllWith, renderAllWith]
    exact .append (Node.renderWith_agreesUpToBlanks hjoin filters scope node)
      (Node.renderAllWith_agreesUpToBlanks hjoin filters scope rest)

end

end Join

/-! ## Trees without loops -/

mutual

/-- Whether a node neither is a loop nor holds one. -/
def Node.isLoopFree : Node → Bool
  | .text _ => true
  | .interpolation _ => true
  | .loop _ _ _ => false
  | .conditional _ consequent alternative =>
    Node.areLoopFree consequent && Node.areLoopFree alternative

/-- Whether there is no loop in a list of nodes. -/
def Node.areLoopFree : List Node → Bool
  | [] => true
  | node :: rest => node.isLoopFree && Node.areLoopFree rest

end

section LoopFree

variable (join join' : LoopLayout → List Text → Text)

mutual

/-- The join does not matter for a node without loops. -/
theorem Node.renderWith_of_isLoopFree (filters : Filters) (scope : Scope) (node : Node)
    (h : node.isLoopFree = true) :
    node.renderWith join filters scope = node.renderWith join' filters scope := by
  cases node with
  | text t => rfl
  | interpolation i => rfl
  | loop head layout body => cases h
  | conditional condition consequent alternative =>
    rw [isLoopFree, Bool.and_eq_true] at h
    rw [renderWith, renderWith, Node.renderAllWith_of_areLoopFree _ _ consequent h.1,
      Node.renderAllWith_of_areLoopFree _ _ alternative h.2]

/-- The join does not matter for nodes without loops. -/
theorem Node.renderAllWith_of_areLoopFree (filters : Filters) (scope : Scope) (nodes : List Node)
    (h : Node.areLoopFree nodes = true) :
    Node.renderAllWith join filters scope nodes = Node.renderAllWith join' filters scope nodes := by
  cases nodes with
  | nil => rfl
  | cons node rest =>
    rw [areLoopFree, Bool.and_eq_true] at h
    rw [renderAllWith, renderAllWith, Node.renderWith_of_isLoopFree _ _ node h.1,
      Node.renderAllWith_of_areLoopFree _ _ rest h.2]

end

end LoopFree

/-- The layout of loops drops blanks only: a template fails exactly as its plain rendering does, and
otherwise shows the text of that without some of its blanks, or all of it if there is no loop. -/
theorem Template.render_agreesUpToBlanks (t : Template) (filters : Filters) (vars : Variables) :
    AgreesUpToBlanks (t.render filters vars) (t.renderPlainly filters vars) ∧
      (Node.areLoopFree t.nodes = true → t.render filters vars = t.renderPlainly filters vars) := by
  rw [render, renderPlainly, ← Node.renderAllWith_join]
  exact ⟨Node.renderAllWith_agreesUpToBlanks thins_join filters _ t.nodes,
    Node.renderAllWith_of_areLoopFree _ _ filters _ t.nodes⟩

/-- A loop in a line over the items of `x`, each between two blanks. -/
def spacedLoop : Node :=
  .loop ⟨['i'], ⟨['x'], [], List.forall_mem_singleton.mpr rfl⟩⟩ .inline
    [.text [' '], .interpolation ⟨⟨⟨['i'], [], List.forall_mem_singleton.mpr rfl⟩, []⟩, [], .start⟩,
      .text [' ']]

/-- The loop lacks some blanks of its plain rendering, and a blank outside of all loops stays. -/
theorem Template.render_agreesUpToBlanks_spacedLoop :
    (Template.mk [] [spacedLoop]).render .standard
        ⟨[(['x'], .sequence [.string ['a'], .string ['b']])]⟩ = .ok "a b".toList ∧
      (Template.mk [] [spacedLoop]).renderPlainly .standard
        ⟨[(['x'], .sequence [.string ['a'], .string ['b']])]⟩ = .ok " a  b ".toList ∧
      AgreesUpToBlanks (.ok "a b".toList) (.ok " a  b ".toList) ∧
      (Template.mk [] [.text [' ']]).render .standard .empty =
        (Template.mk [] [.text [' ']]).renderPlainly .standard .empty := by
  have hshown : (Template.mk [] [spacedLoop]).render .standard
      ⟨[(['x'], .sequence [.string ['a'], .string ['b']])]⟩ = .ok "a b".toList := by
    decide +kernel
  have hplain : (Template.mk [] [spacedLoop]).renderPlainly .standard
      ⟨[(['x'], .sequence [.string ['a'], .string ['b']])]⟩ = .ok " a  b ".toList := by
    decide +kernel
  refine ⟨hshown, hplain, ?_, (Template.render_agreesUpToBlanks _ .standard .empty).2 rfl⟩
  rw [← hshown, ← hplain]
  exact (Template.render_agreesUpToBlanks _ _ _).1

end DocTemplate
