import DocTemplate.Node.Render

/-!
# What rendering asks of a scope

A tree asks a scope for the values of names and nothing else, so it renders alike in two scopes that
give every name the same value, however they come by it. A binding around a tree is as good as a
variable of its name.
-/

namespace DocTemplate

namespace Scope

/-- A binding hides what its name meant before, and no other name. -/
@[simp] theorem get?_bind (s : Scope) (name other : Text) (value : Value) :
    (s.bind name value).get? other = if name = other then some value else s.get? other := by
  unfold get? bind
  by_cases h : name = other
  · subst h
    simp
  · have hne : (other == name) = false := by
      simpa using Ne.symm h
    rw [if_neg h, List.lookup_cons, hne]

/-- Without bindings a name is a variable. -/
@[simp] theorem get?_root (vars : Variables) (name : Text) :
    (Scope.mk [] vars).get? name = vars.get? name := rfl

/-- The scopes give every name the same value. -/
def Agrees (s s' : Scope) : Prop := ∀ name, s.get? name = s'.get? name

namespace Agrees

variable {s s' : Scope} (h : s.Agrees s')

include h

/-- Scopes that agree still do inside a loop. -/
theorem bind (name : Text) (value : Value) : (s.bind name value).Agrees (s'.bind name value) := by
  intro other
  rw [get?_bind, get?_bind, h other]

/-- Paths lead to the same values. -/
theorem resolve_eq (p : Path) : s.resolve p = s'.resolve p := by
  rw [resolve, resolve, h p.head]

/-- The same conditions hold. -/
theorem holds_eq (condition : Path) : s.holds condition = s'.holds condition := by
  rw [holds, holds, h.resolve_eq]

/-- Loops run over the same items. -/
theorem items_eq (iterable : Path) : s.items iterable = s'.items iterable := by
  rw [items, items, h.resolve_eq]

/-- Interpolations show the same text. -/
theorem interpolate_eq (filters : Filters) (i : Interpolation) :
    s.interpolate filters i = s'.interpolate filters i := by
  rw [interpolate, interpolate, h.resolve_eq]

end Agrees

/-- A binding around everything is as good as a variable. -/
theorem agrees_insert (vars : Variables) (name : Text) (value : Value) :
    ((Scope.mk [] vars).bind name value).Agrees ⟨[], vars.insert name value⟩ := by
  intro other
  rw [get?_bind, get?_root, get?_root, Variables.get?_insert]

end Scope

mutual

/-- A node renders alike in scopes that agree. -/
theorem Node.render_eq_of_agrees {s s' : Scope} (h : s.Agrees s') (filters : Filters)
    (node : Node) : node.render filters s = node.render filters s' := by
  cases node with
  | text t => rfl
  | interpolation i => exact h.interpolate_eq filters i
  | loop head layout body =>
    have hbody (item : Value) : Node.renderAll filters (s.bind head.name item) body =
        Node.renderAll filters (s'.bind head.name item) body :=
      Node.renderAll_eq_of_agrees (h.bind head.name item) filters body
    rw [render, render, h.items_eq]
    simp only [hbody]
  | conditional condition consequent alternative =>
    rw [render, render, h.holds_eq, Node.renderAll_eq_of_agrees h filters consequent,
      Node.renderAll_eq_of_agrees h filters alternative]

/-- Nodes render alike in scopes that agree. -/
theorem Node.renderAll_eq_of_agrees {s s' : Scope} (h : s.Agrees s') (filters : Filters)
    (nodes : List Node) : Node.renderAll filters s nodes = Node.renderAll filters s' nodes := by
  cases nodes with
  | nil => rfl
  | cons node rest =>
    rw [renderAll, renderAll, Node.render_eq_of_agrees h filters node,
      Node.renderAll_eq_of_agrees h filters rest]

end

end DocTemplate
