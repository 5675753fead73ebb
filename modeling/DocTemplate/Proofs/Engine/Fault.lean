import DocTemplate.Engine
import DocTemplate.Proofs.Node.Failure
import DocTemplate.Proofs.Node.Names

/-!
# Faults of a source

A rendering fails for one of two reasons. Either the source itself is at fault, and then it has no
tree and fails alike with any variables and filters; or it has a tree, and then only a filter that
the tree names and nobody has registered can make it fail. So a source with a tree, all of whose
filters are registered, always shows something.
-/

namespace DocTemplate

/-- Whether a cause lies in the source of a document: an opener has no closer, or a statement does
not fit. -/
def Cause.isOfSource : Cause → Bool
  | unterminated _ _ | misplaced _ _ => true
  | unknownFilter _ _ _ => false

/-- Tokens that make no tree are at fault themselves. -/
theorem isOfSource_of_ofTokens {tokens : List Token} {failure : Failure}
    (h : Node.ofTokens tokens = .error failure) : failure.cause.isOfSource = true := by
  rw [Node.ofTokens] at h
  cases hrun : Builder.start.acceptAll .start tokens with
  | error failure' =>
    rw [hrun] at h
    cases h
    obtain ⟨front, token, back, c, -, -, hrefuses⟩ := Builder.acceptAll_eq_error_iff.mp hrun
    cases hrefuses
    rfl
  | ok b =>
    rw [hrun] at h
    obtain ⟨front, opening, rest, problem, -, -, rfl⟩ := exists_staysOpen_of_finish hrun h
    rfl

namespace Engine

/-- A source without a tree is at fault itself. -/
theorem isOfSource_of_parseNodes {s : Settings} {source : Text} {failure : Failure}
    (h : parseNodes s source = .error failure) : failure.cause.isOfSource = true := by
  rw [parseNodes] at h
  cases hscan : scan s source with
  | error u =>
    rw [hscan] at h
    cases h
    rfl
  | ok tokens =>
    rw [hscan] at h
    exact isOfSource_of_ofTokens h

variable {s : Settings} {filters : Filters} {source : Text}

/-- A source without a tree fails with any variables and filters as it does without them. -/
theorem render_of_parseNodes_error {failure : Failure} (h : parseNodes s source = .error failure)
    (vars : Variables) : render ⟨s, filters⟩ source vars = .error failure := by
  rw [render, h]
  rfl

variable {nodes : List Node} (hnodes : parseNodes s source = .ok nodes)

include hnodes

/-- A source with a tree fails only because of a filter that the tree names and that is not
registered. -/
theorem exists_filterName_of_render {vars : Variables} {failure : Failure}
    (h : render ⟨s, filters⟩ source vars = .error failure) :
    ∃ name ∈ Node.filterNamesAll nodes, filters.find? name = none ∧
      ∃ tag, failure.cause = .unknownFilter name tag filters.names := by
  rw [render, hnodes] at h
  obtain ⟨i, hi, name, hname, hunknown, rfl⟩ := Node.exists_failsWith_of_renderAll nodes h
  exact ⟨name, Node.mem_filterNamesAll hi hname, hunknown, i.raw, rfl⟩

/-- A source with a tree whose filters are all registered shows something with any variables. -/
theorem exists_render_eq_ok
    (hfilters : ∀ name ∈ Node.filterNamesAll nodes, filters.find? name ≠ none)
    (vars : Variables) : ∃ shown, render ⟨s, filters⟩ source vars = .ok shown := by
  cases hrender : render ⟨s, filters⟩ source vars with
  | ok shown => exact ⟨shown, rfl⟩
  | error failure =>
    obtain ⟨name, hname, hunknown, -⟩ := exists_filterName_of_render hnodes hrender
    exact absurd hunknown (hfilters name hname)

end Engine

end DocTemplate
