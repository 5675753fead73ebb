import DocTemplate.Proofs.Node.Names
import DocTemplate.Proofs.Node.Scope
import DocTemplate.Proofs.Path
import DocTemplate.Engine

/-!
# What a rendering depends on

A template asks its variables for its free heads and its filters for the names in it, and for
nothing else. Two renderings that agree on these show the same text or fail at the same
interpolation; only the names that a failure offers are those of all filters. The scopes of the two
renderings stay in agreement inside a loop, because what the loop binds is the same in both and
hides whatever else its name means.
-/

namespace DocTemplate

/-! ## Scopes and filters that agree on names -/

namespace Scope

/-- The scopes give the same values to the names. -/
def AgreesOn (names : List Text) (s s' : Scope) : Prop := ∀ name ∈ names, s.get? name = s'.get? name

namespace AgreesOn

variable {names : List Text} {s s' : Scope}

/-- Scopes that agree on names agree on some of them. -/
theorem mono {few : List Text} (h : AgreesOn names s s') (hfew : few ⊆ names) :
    AgreesOn few s s' := fun name hname => h name (hfew hname)

/-- Inside a loop its variable need not have meant the same before. -/
theorem bind {name : Text} (h : AgreesOn (names.filter (· ≠ name)) s s') (value : Value) :
    AgreesOn names (s.bind name value) (s'.bind name value) := by
  intro other hother
  rw [get?_bind, get?_bind]
  split
  · rfl
  · rename_i hne
    exact h other (List.mem_filter.mpr ⟨hother, decide_eq_true (Ne.symm hne)⟩)

/-- A path whose head has the same value leads to the same value. -/
theorem resolve_eq (h : AgreesOn names s s') {p : Path} (hp : p.head ∈ names) :
    s.resolve p = s'.resolve p := by
  rw [resolve, resolve, h p.head hp]

end AgreesOn

end Scope

/-- Chains of filters that are found alike do the same. -/
theorem Filters.applyAll_eq_of_find?_eq {filters filters' : Filters} {names : List Text}
    (h : ∀ name ∈ names, filters.find? name = filters'.find? name) (input : Text) :
    filters.applyAll input names = filters'.applyAll input names := by
  induction names generalizing input with
  | nil => rfl
  | cons name rest ih =>
    obtain ⟨hname, hrest⟩ := List.forall_mem_cons.mp h
    rw [applyAll, applyAll, hname]
    cases filters'.find? name with
    | none => rfl
    | some f => exact ih hrest (f.apply input)

/-! ## Results that differ in the filters on offer -/

/-- Two results with different filters are alike: either both are the same, or both fail because of
the same unknown filter in the same place, and each offers its own filters. -/
inductive ResultsAlike {α : Type} (filters filters' : Filters) :
    Except Failure α → Except Failure α → Prop
  /-- Both results are the same. -/
  | ok (a : α) : ResultsAlike filters filters' (.ok a) (.ok a)
  /-- Both fail at the same interpolation. -/
  | unknownFilter (location : Location) (name tag : Text) : ResultsAlike filters filters'
      (.error ⟨location, .unknownFilter name tag filters.names⟩)
      (.error ⟨location, .unknownFilter name tag filters'.names⟩)

namespace ResultsAlike

variable {α β : Type} {filters filters' : Filters}

/-- Results that go on alike are alike. -/
theorem bind {x x' : Except Failure α} {f f' : α → Except Failure β}
    (hx : ResultsAlike filters filters' x x')
    (hf : ∀ a, ResultsAlike filters filters' (f a) (f' a)) :
    ResultsAlike filters filters' (x >>= f) (x' >>= f') := by
  cases hx with
  | ok a => exact hf a
  | unknownFilter location name tag => exact .unknownFilter location name tag

/-- Results are alike for a list of items if they are for each item. -/
theorem mapM {f f' : α → Except Failure β} (h : ∀ a, ResultsAlike filters filters' (f a) (f' a))
    (items : List α) : ResultsAlike filters filters' (items.mapM f) (items.mapM f') := by
  induction items with
  | nil => exact .ok []
  | cons item items ih =>
    rw [List.mapM_cons, List.mapM_cons]
    exact (h item).bind fun b => ih.bind fun bs => .ok (b :: bs)

end ResultsAlike

/-! ## Rendering -/

/-- An interpolation shows the same, or fails because of the same filter. -/
theorem Scope.resultsAlike_interpolate {filters filters' : Filters} {s s' : Scope}
    {i : Interpolation} (hscope : AgreesOn [i.pipe.path.head] s s')
    (hfilters : ∀ name ∈ i.pipe.filters, filters.find? name = filters'.find? name) :
    ResultsAlike filters filters' (s.interpolate filters i) (s'.interpolate filters' i) := by
  unfold interpolate
  rw [hscope.resolve_eq List.mem_cons_self]
  dsimp only
  rw [Filters.applyAll_eq_of_find?_eq hfilters]
  split
  · exact .ok _
  · exact .unknownFilter i.location _ i.raw

section Render

variable {filters filters' : Filters}

mutual

/-- A node renders alike in scopes that agree on its free heads, with filters that agree on the
names in it. -/
theorem Node.resultsAlike_render {s s' : Scope} (node : Node)
    (hscope : Scope.AgreesOn node.freeHeads s s')
    (hfilters : ∀ name ∈ node.filterNames, filters.find? name = filters'.find? name) :
    ResultsAlike filters filters' (node.render filters s) (node.render filters' s') := by
  cases node with
  | text t => exact .ok t
  | interpolation i =>
    rw [filterNames_interpolation] at hfilters
    exact Scope.resultsAlike_interpolate hscope hfilters
  | loop head layout body =>
    rw [filterNames_loop] at hfilters
    have hitems : s.items head.iterable = s'.items head.iterable := by
      rw [Scope.items, Scope.items, hscope.resolve_eq List.mem_cons_self]
    have hbody (item : Value) : ResultsAlike filters filters'
        (Node.renderAll filters (s.bind head.name item) body)
        (Node.renderAll filters' (s'.bind head.name item) body) :=
      Node.resultsAlike_renderAll body
        (Scope.AgreesOn.bind (hscope.mono (List.subset_cons_self ..)) item) hfilters
    rw [render, render, hitems]
    exact (ResultsAlike.mapM hbody _).bind fun pieces => .ok (layout.join pieces)
  | conditional condition consequent alternative =>
    rw [filterNames_conditional] at hfilters
    have hholds : s.holds condition = s'.holds condition := by
      rw [Scope.holds, Scope.holds, hscope.resolve_eq List.mem_cons_self]
    have hbranches := hscope.mono (List.subset_cons_self ..)
    rw [render, render, hholds]
    split
    · exact Node.resultsAlike_renderAll consequent
        (hbranches.mono (List.subset_append_left ..))
        fun name hname => hfilters name (List.mem_append_left _ hname)
    · exact Node.resultsAlike_renderAll alternative
        (hbranches.mono (List.subset_append_right ..))
        fun name hname => hfilters name (List.mem_append_right _ hname)

/-- Nodes render alike in scopes that agree on their free heads, with filters that agree on the
names in them. -/
theorem Node.resultsAlike_renderAll {s s' : Scope} (nodes : List Node)
    (hscope : Scope.AgreesOn (Node.freeHeadsAll nodes) s s')
    (hfilters : ∀ name ∈ Node.filterNamesAll nodes,
      filters.find? name = filters'.find? name) :
    ResultsAlike filters filters' (Node.renderAll filters s nodes)
      (Node.renderAll filters' s' nodes) := by
  cases nodes with
  | nil => exact .ok []
  | cons node rest =>
    rw [filterNamesAll_cons] at hfilters
    have hnode := Node.resultsAlike_render node (hscope.mono (List.subset_append_left ..))
      fun name hname => hfilters name (List.mem_append_left _ hname)
    have hrest := Node.resultsAlike_renderAll rest (hscope.mono (List.subset_append_right ..))
      fun name hname => hfilters name (List.mem_append_right _ hname)
    rw [renderAll, renderAll]
    exact hnode.bind fun front => hrest.bind fun back => .ok (front ++ back)

end

end Render

/-- A template shows the same text, or fails because of the same unknown filter in the same place,
with any variables that agree on its free heads and any filters that agree on the names in it. -/
theorem Template.resultsAlike_of_agreesOn (t : Template) (filters filters' : Filters)
    (vars vars' : Variables)
    (hvars : ∀ name ∈ Node.freeHeadsAll t.nodes, vars.get? name = vars'.get? name)
    (hfilters : ∀ name ∈ Node.filterNamesAll t.nodes,
      filters.find? name = filters'.find? name) :
    ResultsAlike filters filters' (t.render filters vars) (t.render filters' vars') :=
  Node.resultsAlike_renderAll t.nodes hvars hfilters

/-- A loop in a line that shows its variable `v` through filters, over the items of `vs`. -/
def shadowingLoop (filters : List Text) : Template :=
  ⟨[], [.loop ⟨['v'], Path.ofName ['v', 's'] rfl⟩ .inline
    [.interpolation ⟨⟨Path.ofName ['v'] rfl, filters⟩, ['v'], .start⟩]]⟩

/-- A variable `v` and two items. -/
def shadowedVariables (v : Value) : Variables :=
  ⟨[(['v'], v), (['v', 's'], .sequence [.string ['a'], .string ['b']])]⟩

/-- The only filter there is. -/
def trimOnly : Filters := Filters.empty.register ⟨"trim".toList, Text.trim⟩

/-- The variable `v` is hidden by the loop, so it does not matter; an unknown filter behind a known
one fails with each set of filters, and each failure offers another one. -/
theorem Template.resultsAlike_of_agreesOn_shadowingLoop :
    (shadowingLoop ["trim".toList]).render .standard (shadowedVariables .null) =
        .ok ['a', 'b'] ∧
      ResultsAlike .standard trimOnly
        ((shadowingLoop ["trim".toList]).render .standard (shadowedVariables .null))
        ((shadowingLoop ["trim".toList]).render trimOnly (shadowedVariables (.bool true))) ∧
      (shadowingLoop ["trim".toList, ['f']]).render trimOnly (shadowedVariables .null) =
        .error ⟨.start, .unknownFilter ['f'] ['v'] ["trim".toList]⟩ ∧
      ResultsAlike .standard trimOnly
        ((shadowingLoop ["trim".toList, ['f']]).render .standard (shadowedVariables .null))
        ((shadowingLoop ["trim".toList, ['f']]).render trimOnly
          (shadowedVariables (.bool true))) := by
  have hvars (filters : List Text) : ∀ name ∈ Node.freeHeadsAll (shadowingLoop filters).nodes,
      (shadowedVariables .null).get? name = (shadowedVariables (.bool true)).get? name :=
    List.forall_mem_singleton.mpr rfl
  have htrim : Filters.standard.find? "trim".toList = trimOnly.find? "trim".toList := rfl
  have hnone : Filters.standard.find? ['f'] = trimOnly.find? ['f'] := rfl
  refine ⟨by decide +kernel, ?_, by decide +kernel, ?_⟩
  · exact Template.resultsAlike_of_agreesOn _ _ _ _ _ (hvars _)
      (List.forall_mem_singleton.mpr htrim)
  · exact Template.resultsAlike_of_agreesOn _ _ _ _ _ (hvars _)
      (List.forall_mem_cons.mpr ⟨htrim, List.forall_mem_singleton.mpr hnone⟩)

end DocTemplate
