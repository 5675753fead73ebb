import DocTemplate.Proofs.Expression
import DocTemplate.Proofs.Node.Dependence

/-!
# Renaming the variable of a loop

The variable of a loop may be called by any other name that does not occur in the body. What is
renamed are the heads of the paths that this loop binds: inside a loop over the same name they mean
something else and stay, but what that loop runs over lies outside of its own binding. A body and
its renamed form are rendered in scopes that differ in the two names only, and a loop over the old
name hides even this difference.
-/

namespace DocTemplate

/-- A new name for an old one. -/
structure Renaming where
  /-- The old name. -/
  old : Text
  /-- The new name. -/
  new : Text
  /-- The new name may be the variable of a loop. -/
  isIdentifier_new : isIdentifier new = true

/-- What may be the variable of a loop may be the head of a path. -/
theorem isSegment_of_isIdentifier {name : Text} (h : isIdentifier name = true) :
    isSegment name = true := by
  have hchars := List.all_eq_true.mpr (isSegmentChar_of_isIdentifier h)
  cases name with
  | nil => cases h
  | cons c name => simpa [isSegment] using hchars

/-- The path with another head. -/
def Path.withHead (p : Path) (head : Text) (h : isSegment head = true) : Path :=
  ⟨head, p.tail, List.forall_mem_cons.mpr ⟨h, (List.forall_mem_cons.mp p.valid).2⟩⟩

/-- The path with its head renamed. -/
def Path.rename (r : Renaming) (p : Path) : Path :=
  if p.head = r.old then p.withHead r.new (isSegment_of_isIdentifier r.isIdentifier_new) else p

/-- The interpolation with its path renamed; what messages quote stays as it is written. -/
def Interpolation.rename (r : Renaming) (i : Interpolation) : Interpolation :=
  { i with pipe := { i.pipe with path := i.pipe.path.rename r } }

mutual

/-- The node with the old name renamed where no loop in it binds it. -/
def Node.rename (r : Renaming) : Node → Node
  | .text t => .text t
  | .interpolation i => .interpolation (i.rename r)
  | .loop head layout body =>
    .loop ⟨head.name, head.iterable.rename r⟩ layout
      (if head.name = r.old then body else Node.renameAll r body)
  | .conditional condition consequent alternative =>
    .conditional (condition.rename r) (Node.renameAll r consequent) (Node.renameAll r alternative)

/-- The nodes with the old name renamed where no loop in them binds it. -/
def Node.renameAll (r : Renaming) : List Node → List Node
  | [] => []
  | node :: rest => node.rename r :: Node.renameAll r rest

end

/-! ## The names that occur -/

/-- The heads of paths and the variables of loops in a piece of a reading. -/
def Symbol.names : Symbol → List Text
  | .interpolation i => [i.pipe.path.head]
  | .openLoop head _ => [head.iterable.head, head.name]
  | .openCondition condition => [condition.head]
  | .character _ | .closeLoop | .alternative | .closeCondition => []

namespace Node

/-- The heads of paths and the variables of loops in a node. -/
def names (node : Node) : List Text := node.symbols.flatMap Symbol.names

/-- The heads of paths and the variables of loops in nodes. -/
def namesAll (nodes : List Node) : List Text := (symbolsAll nodes).flatMap Symbol.names

@[simp] theorem names_interpolation (i : Interpolation) :
    names (.interpolation i) = [i.pipe.path.head] := by
  simp [names, symbols, Symbol.names]

@[simp] theorem names_loop (head : LoopHead) (layout : LoopLayout) (body : List Node) :
    names (.loop head layout body) = head.iterable.head :: head.name :: namesAll body := by
  simp [names, namesAll, symbols, Symbol.names]

@[simp] theorem names_conditional (condition : Path) (consequent alternative : List Node) :
    names (.conditional condition consequent alternative) =
      condition.head :: (namesAll consequent ++ namesAll alternative) := by
  simp [names, namesAll, symbols, Symbol.names]

@[simp] theorem namesAll_cons (node : Node) (rest : List Node) :
    namesAll (node :: rest) = node.names ++ namesAll rest := by
  simp [names, namesAll, symbolsAll]

end Node

mutual

/-- Free heads occur. -/
theorem Node.freeHeads_subset_names (node : Node) : node.freeHeads ⊆ node.names := by
  cases node with
  | text t => exact List.nil_subset _
  | interpolation i => simp [freeHeads]
  | loop head layout body =>
    have hbody := Node.freeHeadsAll_subset_namesAll body
    rw [freeHeads, names_loop]
    apply List.cons_subset_cons
    intro name hname
    exact List.mem_cons_of_mem _ (hbody (List.mem_filter.mp hname).1)
  | conditional condition consequent alternative =>
    rw [freeHeads, names_conditional]
    apply List.cons_subset_cons
    apply List.append_subset.mpr
    constructor
    · exact List.subset_append_of_subset_left _ (Node.freeHeadsAll_subset_namesAll consequent)
    · exact List.subset_append_of_subset_right _ (Node.freeHeadsAll_subset_namesAll alternative)

/-- Free heads of nodes occur in them. -/
theorem Node.freeHeadsAll_subset_namesAll (nodes : List Node) :
    Node.freeHeadsAll nodes ⊆ Node.namesAll nodes := by
  cases nodes with
  | nil => exact List.nil_subset _
  | cons node rest =>
    rw [freeHeadsAll, namesAll_cons]
    apply List.append_subset.mpr
    constructor
    · exact List.subset_append_of_subset_left _ (Node.freeHeads_subset_names node)
    · exact List.subset_append_of_subset_right _ (Node.freeHeadsAll_subset_namesAll rest)

end

/-! ## Scopes that differ in two names -/

namespace Renaming

variable {r : Renaming} {s s' : Scope}

/-- In the second scope the new name means what the old one means in the first scope, and any third
name means the same in both. -/
structure Carries (r : Renaming) (s s' : Scope) : Prop where
  /-- The new name has taken over the meaning of the old one. -/
  renamed : s'.get? r.new = s.get? r.old
  /-- Other names keep theirs. -/
  others : ∀ name, name ≠ r.old → name ≠ r.new → s'.get? name = s.get? name

/-- A loop may bind the new name instead of the old one. -/
theorem carries_bind (r : Renaming) (s : Scope) (value : Value) :
    r.Carries (s.bind r.old value) (s.bind r.new value) := by
  constructor
  · rw [Scope.get?_bind, Scope.get?_bind, if_pos rfl, if_pos rfl]
  · intro name hold hnew
    rw [Scope.get?_bind, Scope.get?_bind, if_neg hold.symm, if_neg hnew.symm]

/-- Inside a loop over another name the difference stays the same. -/
theorem Carries.bind (h : r.Carries s s') {name : Text} (hold : name ≠ r.old)
    (hnew : name ≠ r.new) (value : Value) : r.Carries (s.bind name value) (s'.bind name value) := by
  constructor
  · rw [Scope.get?_bind, Scope.get?_bind, if_neg hold, if_neg hnew, h.renamed]
  · intro other hother hother'
    rw [Scope.get?_bind, Scope.get?_bind, h.others other hother hother']

/-- Inside a loop over the old name the scopes differ in the new name at most. -/
theorem Carries.agreesOn_bind (h : r.Carries s s') {names : List Text} (hnew : r.new ∉ names)
    (value : Value) : Scope.AgreesOn names (s'.bind r.old value) (s.bind r.old value) := by
  intro name hname
  rw [Scope.get?_bind, Scope.get?_bind]
  by_cases hold : r.old = name
  · rw [if_pos hold, if_pos hold]
  · have hother : name ≠ r.new := by
      rintro rfl
      exact hnew hname
    rw [if_neg hold, if_neg hold, h.others name (Ne.symm hold) hother]

/-- A renamed path leads to where the path has led. -/
theorem Carries.resolve_rename (h : r.Carries s s') {p : Path} (hp : p.head ≠ r.new) :
    s'.resolve (p.rename r) = s.resolve p := by
  unfold Path.rename
  by_cases hold : p.head = r.old
  · rw [if_pos hold, Scope.resolve, Scope.resolve, hold]
    exact congrArg (Option.bind · _) h.renamed
  · rw [if_neg hold, Scope.resolve, Scope.resolve, h.others p.head hold hp]

/-- A renamed interpolation shows the same, or fails with the same message. -/
theorem Carries.interpolate_rename (h : r.Carries s s') {i : Interpolation}
    (hi : i.pipe.path.head ≠ r.new) (filters : Filters) :
    s'.interpolate filters (i.rename r) = s.interpolate filters i := by
  rw [Scope.interpolate, Scope.interpolate, Interpolation.rename, h.resolve_rename hi]

end Renaming

/-! ## Rendering -/

/-- Results with the same filters on offer are alike only if they are the same. -/
theorem ResultsAlike.eq {α : Type} {filters : Filters} {x x' : Except Failure α}
    (h : ResultsAlike filters filters x x') : x = x' := by
  cases h with
  | ok a => rfl
  | unknownFilter location name tag => rfl

section Render

variable {r : Renaming}

mutual

/-- A renamed node renders as the node does where the new name has taken over. -/
theorem Node.render_rename {s s' : Scope} (h : r.Carries s s') (filters : Filters) (node : Node)
    (hnew : r.new ∉ node.names) :
    (node.rename r).render filters s' = node.render filters s := by
  cases node with
  | text t => rfl
  | interpolation i =>
    rw [names_interpolation, List.mem_singleton] at hnew
    rw [Node.rename]
    exact h.interpolate_rename (Ne.symm hnew) filters
  | loop head layout body =>
    rw [names_loop, List.mem_cons, List.mem_cons, not_or, not_or] at hnew
    obtain ⟨hiterable, hname, hbody⟩ := hnew
    have hitems : s'.items (head.iterable.rename r) = s.items head.iterable := by
      rw [Scope.items, Scope.items, h.resolve_rename (Ne.symm hiterable)]
    rw [Node.rename, render, render, hitems]
    by_cases hold : head.name = r.old
    · -- The inner loop binds the old name anew, so its body has not been renamed.
      have hpiece (item : Value) :
          Node.renderAll filters (s'.bind head.name item) body =
            Node.renderAll filters (s.bind head.name item) body := by
        have hfree : r.new ∉ Node.freeHeadsAll body := fun hmem =>
          hbody (Node.freeHeadsAll_subset_namesAll body hmem)
        have hagrees := h.agreesOn_bind hfree item
        rw [hold]
        exact (Node.resultsAlike_renderAll body hagrees fun _ _ => rfl).eq
      rw [if_pos hold]
      simp only [hpiece]
    · have hpiece (item : Value) :
          Node.renderAll filters (s'.bind head.name item) (Node.renameAll r body) =
            Node.renderAll filters (s.bind head.name item) body :=
        Node.renderAll_renameAll (h.bind hold (Ne.symm hname) item) filters body hbody
      rw [if_neg hold]
      simp only [hpiece]
  | conditional condition consequent alternative =>
    rw [names_conditional, List.mem_cons, List.mem_append, not_or, not_or] at hnew
    obtain ⟨hcondition, hconsequent, halternative⟩ := hnew
    have hholds : s'.holds (condition.rename r) = s.holds condition := by
      rw [Scope.holds, Scope.holds, h.resolve_rename (Ne.symm hcondition)]
    rw [Node.rename, render, render, hholds,
      Node.renderAll_renameAll h filters consequent hconsequent,
      Node.renderAll_renameAll h filters alternative halternative]

/-- Renamed nodes render as the nodes do where the new name has taken over. -/
theorem Node.renderAll_renameAll {s s' : Scope} (h : r.Carries s s') (filters : Filters)
    (nodes : List Node) (hnew : r.new ∉ Node.namesAll nodes) :
    Node.renderAll filters s' (Node.renameAll r nodes) = Node.renderAll filters s nodes := by
  cases nodes with
  | nil => rfl
  | cons node rest =>
    rw [namesAll_cons, List.mem_append, not_or] at hnew
    rw [renameAll, renderAll, renderAll, Node.render_rename h filters node hnew.1,
      Node.renderAll_renameAll h filters rest hnew.2]

end

end Render

/-- A loop whose variable is renamed, to a name that does not occur in its body, gives the same text
or failure in every scope. -/
theorem Node.render_renamedLoop (r : Renaming) (iterable : Path) (layout : LoopLayout)
    (body : List Node) (hnew : r.new ∉ Node.namesAll body) (filters : Filters) (scope : Scope) :
    Node.render filters scope (.loop ⟨r.new, iterable⟩ layout (Node.renameAll r body)) =
      Node.render filters scope (.loop ⟨r.old, iterable⟩ layout body) := by
  have hpiece (item : Value) :
      Node.renderAll filters (scope.bind r.new item) (Node.renameAll r body) =
        Node.renderAll filters (scope.bind r.old item) body :=
    Node.renderAll_renameAll (r.carries_bind scope item) filters body hnew
  rw [render, render]
  simp only [hpiece]

/-- The name `w` for `u`. -/
def uToW : Renaming := ⟨['u'], ['w'], rfl⟩

/-- Loops over the items of a variable, with each of them under the name `u`, and shows behind them
whether the variable holds. -/
def shadowingBody (name : Text) (h : isSegment name = true) : List Node :=
  [.loop ⟨['u'], Path.ofName name h⟩ .inline
      [.interpolation ⟨⟨Path.ofName ['u'] rfl, []⟩, ['u'], .start⟩],
    .conditional (Path.ofName name h) [.text ['+']] []]

/-- A sequence of sequences under the name `s`, and both names as variables and as bindings. -/
def crowdedScope : Scope :=
  ⟨[(['u'], .null), (['w'], .null)],
    ⟨[(['s'], .sequence [.sequence [.string ['a'], .string ['b']], .sequence [.string ['c']]]),
      (['u'], .bool true), (['w'], .bool true)]⟩⟩

/-- Only what the outer loop binds is renamed, and the inner loop still shows its own items. -/
theorem Node.render_renamedLoop_shadowing :
    ['w'] ∉ Node.namesAll (shadowingBody ['u'] rfl) ∧
      Node.renameAll uToW (shadowingBody ['u'] rfl) = shadowingBody ['w'] rfl ∧
      Node.render .standard crowdedScope
          (.loop ⟨['w'], Path.ofName ['s'] rfl⟩ .inline (shadowingBody ['w'] rfl)) =
        .ok "ab+c+".toList := by
  have hnew : ['w'] ∉ Node.namesAll (shadowingBody ['u'] rfl) := by decide
  have hrenamed : Node.renameAll uToW (shadowingBody ['u'] rfl) = shadowingBody ['w'] rfl := rfl
  have hshown : Node.render .standard crowdedScope
      (.loop ⟨['u'], Path.ofName ['s'] rfl⟩ .inline (shadowingBody ['u'] rfl)) =
        .ok "ab+c+".toList := by decide +kernel
  have hsame := Node.render_renamedLoop uToW (Path.ofName ['s'] rfl) .inline _ hnew .standard
    crowdedScope
  rw [hrenamed] at hsame
  exact ⟨hnew, hrenamed, hsame.trans hshown⟩

end DocTemplate
