import DocTemplate.Filter
import DocTemplate.Layout
import DocTemplate.Problem
import DocTemplate.Variables

/-!
# Rendering document trees

A tree is rendered in a scope: the variables, hidden by the bindings of the loops around. A path
that leads nowhere shows nothing, does not hold as a condition and has nothing to loop over, so the
only way to fail is a filter that nobody has registered. A binding ends with its loop.
-/

namespace DocTemplate

/-- What names mean at a place in a document. -/
structure Scope where
  /-- The bindings of the loops around, the innermost first. -/
  bindings : List (Text × Value)
  /-- The variables, for names that no loop around binds. -/
  root : Variables

namespace Scope

/-- Binds a name inside a loop. -/
def bind (s : Scope) (name : Text) (value : Value) : Scope :=
  { s with bindings := (name, value) :: s.bindings }

/-- The value of a name: the innermost binding hides all others. -/
def get? (s : Scope) (name : Text) : Option Value :=
  match s.bindings.lookup name with
  | some value => some value
  | none => s.root.get? name

/-- The value that a path leads to. -/
def resolve (s : Scope) (p : Path) : Option Value := (s.get? p.head).bind (·.lookup p.tail)

/-- Whether a condition holds. -/
def holds (s : Scope) (condition : Path) : Bool :=
  match s.resolve condition with
  | some value => value.isTruthy
  | none => false

/-- The items that a loop runs over. -/
def items (s : Scope) (iterable : Path) : List Value :=
  match s.resolve iterable with
  | some (.sequence items) => items
  | _ => []

/-- The text that an interpolation shows. -/
def interpolate (s : Scope) (filters : Filters) (i : Interpolation) : Except Failure Text :=
  let text := match s.resolve i.pipe.path with
    | some value => value.toText
    | none => []
  match filters.applyAll text i.pipe.filters with
  | .ok shown => .ok shown
  | .error name => .error ⟨i.location, .unknownFilter name i.raw filters.names⟩

end Scope

mutual

/-- The text of a node. -/
def Node.render (filters : Filters) (scope : Scope) : Node → Except Failure Text
  | .text t => .ok t
  | .interpolation i => scope.interpolate filters i
  | .loop head layout body => do
    let pieces ← (scope.items head.iterable).mapM fun item =>
      Node.renderAll filters (scope.bind head.name item) body
    return layout.join pieces
  | .conditional condition consequent alternative =>
    if scope.holds condition then Node.renderAll filters scope consequent
    else Node.renderAll filters scope alternative

/-- The text of nodes one behind the other. -/
def Node.renderAll (filters : Filters) (scope : Scope) : List Node → Except Failure Text
  | [] => .ok []
  | node :: rest => do
    let front ← Node.render filters scope node
    let back ← Node.renderAll filters scope rest
    return front ++ back

end

end DocTemplate
