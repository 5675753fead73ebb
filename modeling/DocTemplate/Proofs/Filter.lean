import DocTemplate.Node.Render
import DocTemplate.Proofs.Entries
import Mathlib.Data.List.Forall2

/-!
# The views of registered filters

Filters are looked at in three ways: by name, as the list of all names, and by a chain of names that
is applied to a text. After any registrations the three agree: a name leads to the filter that was
registered under it last, the names are listed in order, and a chain goes through exactly if all its
names are listed. A failed interpolation never names a filter that it lists as available.
-/

namespace DocTemplate

namespace Filters

/-! ## Registrations -/

/-- The filters that are always there, in the order in which they are registered. -/
def builtIn : List Filter := standard.latestFirst.reverse

/-- The filters after registrations, which are told in order. -/
inductive Reached : Filters → List Filter → Prop
  /-- Nothing has been registered. -/
  | empty : Reached .empty []
  /-- The filters that are always there have been registered. -/
  | standard : Reached .standard builtIn
  /-- One more filter is registered. -/
  | register {fs : Filters} {history : List Filter} (h : Reached fs history) (f : Filter) :
    Reached (fs.register f) (history ++ [f])

/-- A search meets registered filters in the opposite order. -/
theorem Reached.latestFirst_eq {fs : Filters} {history : List Filter} (h : fs.Reached history) :
    fs.latestFirst = history.reverse := by
  induction h with
  | empty => rfl
  | standard => exact (List.reverse_reverse _).symm
  | register _ f ih =>
    rw [Filters.register, ih, List.reverse_append, List.reverse_singleton, List.singleton_append]

/-- A name leads to the last filter that was registered under it. -/
theorem Reached.find?_eq_some_iff {fs : Filters} {history : List Filter} (h : fs.Reached history)
    {name : Text} {f : Filter} :
    fs.find? name = some f ↔ IsLast (·.name = name) history f := by
  rw [find?, h.latestFirst_eq, find?_reverse_eq_some_iff]
  simp only [beq_iff_eq]

/-! ## Names -/

/-- The names stand in order, each of them once. -/
theorem pairwise_names (fs : Filters) : fs.names.Pairwise (· < ·) :=
  Entries.ascending_ofList _

/-- The names are those that lead to a filter. -/
theorem mem_names_iff {fs : Filters} {name : Text} :
    name ∈ fs.names ↔ ∃ f, fs.find? name = some f := by
  rw [names, Entries.mem_map_fst_ofList, ← Option.isSome_iff_exists, find?, List.find?_isSome]
  simp

/-- A name that is not listed leads to no filter. -/
theorem not_mem_names_iff {fs : Filters} {name : Text} :
    name ∉ fs.names ↔ fs.find? name = none := by
  rw [mem_names_iff, ← Option.isSome_iff_exists, Option.not_isSome_iff_eq_none]

/-! ## Chains -/

/-- A chain goes through exactly if each of its names leads to a filter, and then these are applied
from left to right. -/
theorem applyAll_eq_ok_iff {fs : Filters} {input shown : Text} {names : List Text} :
    fs.applyAll input names = .ok shown ↔
      ∃ chain : List Filter, List.Forall₂ (fun name f => fs.find? name = some f) names chain ∧
        chain.foldl (fun text f => f.apply text) input = shown := by
  induction names generalizing input with
  | nil => simp [applyAll]
  | cons name names ih =>
    rw [applyAll]
    cases hname : fs.find? name with
    | none =>
      constructor
      · nofun
      · rintro ⟨chain, hchain, -⟩
        obtain ⟨f, rest, hf, -, -⟩ := List.forall₂_cons_left_iff.mp hchain
        rw [hname] at hf
        cases hf
    | some f =>
      dsimp only
      rw [ih]
      constructor
      · rintro ⟨chain, hchain, hshown⟩
        exact ⟨f :: chain, .cons hname hchain, hshown⟩
      · rintro ⟨chain, hchain, hshown⟩
        obtain ⟨f', rest, hf', hrest, rfl⟩ := List.forall₂_cons_left_iff.mp hchain
        obtain rfl := Option.some.inj (hname.symm.trans hf')
        exact ⟨rest, hrest, hshown⟩

/-- A chain stops exactly at the first of its names that leads to no filter. -/
theorem applyAll_eq_error_iff {fs : Filters} {input name : Text} {names : List Text} :
    fs.applyAll input names = .error name ↔
      ∃ front back, names = front ++ name :: back ∧ (∀ n ∈ front, n ∈ fs.names) ∧
        name ∉ fs.names := by
  induction names generalizing input with
  | nil => simp [applyAll]
  | cons first names ih =>
    rw [applyAll]
    cases hfirst : fs.find? first with
    | none =>
      have hunknown := not_mem_names_iff.mpr hfirst
      constructor
      · rintro ⟨⟩
        exact ⟨[], names, rfl, by simp, hunknown⟩
      · rintro ⟨front, back, hnames, hfront, -⟩
        cases front with
        | nil => rw [(List.cons.inj hnames).1]
        | cons n front =>
          obtain rfl := (List.cons.inj hnames).1
          exact absurd (hfront first List.mem_cons_self) hunknown
    | some f =>
      have hknown := mem_names_iff.mpr ⟨f, hfirst⟩
      dsimp only
      rw [ih]
      constructor
      · rintro ⟨front, back, rfl, hfront, hname⟩
        exact ⟨first :: front, back, rfl, List.forall_mem_cons.mpr ⟨hknown, hfront⟩, hname⟩
      · rintro ⟨front, back, hnames, hfront, hname⟩
        cases front with
        | nil => exact absurd ((List.cons.inj hnames).1 ▸ hknown) hname
        | cons n front =>
          obtain ⟨-, rfl⟩ := List.cons.inj hnames
          exact ⟨front, back, rfl, (List.forall_mem_cons.mp hfront).2, hname⟩

/-- A chain goes through exactly if all its names are listed. -/
theorem exists_applyAll_eq_ok_iff {fs : Filters} {input : Text} {names : List Text} :
    (∃ shown, fs.applyAll input names = .ok shown) ↔ ∀ name ∈ names, name ∈ fs.names := by
  induction names generalizing input with
  | nil => simp [applyAll]
  | cons name names ih =>
    rw [applyAll, List.forall_mem_cons]
    cases hname : fs.find? name with
    | none =>
      constructor
      · nofun
      · rintro ⟨hknown, -⟩
        exact absurd hknown (not_mem_names_iff.mpr hname)
    | some f =>
      rw [and_iff_right (mem_names_iff.mpr ⟨f, hname⟩)]
      exact ih

/-- An interpolation fails only at a name that it does not list as available. -/
theorem exists_unlisted_of_interpolate {fs : Filters} {scope : Scope} {i : Interpolation}
    {failure : Failure} (h : scope.interpolate fs i = .error failure) :
    ∃ name, failure = ⟨i.location, .unknownFilter name i.raw fs.names⟩ ∧ name ∈ i.pipe.filters ∧
      name ∉ fs.names := by
  unfold Scope.interpolate at h
  dsimp only at h
  split at h
  · cases h
  · rename_i name hname
    obtain ⟨front, back, hnames, -, hunknown⟩ := applyAll_eq_error_iff.mp hname
    cases h
    exact ⟨name, rfl, by rw [hnames]; simp, hunknown⟩

/-! ## Agreement -/

/-- The views of filters agree with each other and with the registrations. -/
structure IsCoherent (fs : Filters) (history : List Filter) : Prop where
  /-- The names are listed in ascending order, each once. -/
  ascending : fs.names.Pairwise (· < ·)
  /-- The listed names are those that lead to a filter. -/
  listed : ∀ name, name ∈ fs.names ↔ ∃ f, fs.find? name = some f
  /-- A name leads to the filter that was registered last under it. -/
  latest : ∀ name f, fs.find? name = some f ↔ IsLast (·.name = name) history f
  /-- A chain goes through exactly if all its names are listed. -/
  goesThrough : ∀ input names,
    (∃ shown, fs.applyAll input names = .ok shown) ↔ ∀ name ∈ names, name ∈ fs.names
  /-- What goes through a chain goes through the filters of the names from left to right. -/
  composes : ∀ input names shown, fs.applyAll input names = .ok shown ↔
    ∃ chain : List Filter, List.Forall₂ (fun name f => fs.find? name = some f) names chain ∧
      chain.foldl (fun text f => f.apply text) input = shown
  /-- A chain stops exactly at the first of its names that is not listed, whatever the input is. -/
  stops : ∀ input names name, fs.applyAll input names = .error name ↔
    ∃ front back, names = front ++ name :: back ∧ (∀ n ∈ front, n ∈ fs.names) ∧ name ∉ fs.names
  /-- An interpolation with such a name fails, and the name is not among those that it lists. -/
  reports : ∀ (scope : Scope) (i : Interpolation) failure,
    scope.interpolate fs i = .error failure →
    ∃ name, failure = ⟨i.location, .unknownFilter name i.raw fs.names⟩ ∧ name ∈ i.pipe.filters ∧
      name ∉ fs.names

/-- After any registrations the views of filters agree. -/
theorem isCoherent_of_reached {fs : Filters} {history : List Filter} (h : fs.Reached history) :
    fs.IsCoherent history where
  ascending := fs.pairwise_names
  listed _ := mem_names_iff
  latest _ _ := h.find?_eq_some_iff
  goesThrough _ _ := exists_applyAll_eq_ok_iff
  composes _ _ _ := applyAll_eq_ok_iff
  stops _ _ _ := applyAll_eq_error_iff
  reports _ _ _ := exists_unlisted_of_interpolate

/-- A filter with the name of one that is always there. -/
def keepBlanks : Filter := ⟨"trim".toList, id⟩

/-- The name of a filter that is always there is registered once more. -/
theorem isCoherent_of_reached_keepBlanks :
    Reached (standard.register keepBlanks) (builtIn ++ [keepBlanks]) ∧
      IsCoherent (standard.register keepBlanks) (builtIn ++ [keepBlanks]) := by
  have hreached := Reached.standard.register keepBlanks
  exact ⟨hreached, isCoherent_of_reached hreached⟩

example : builtIn.map Filter.name = ["capitalize".toList, "length".toList, "upper".toList,
    "lower".toList, "trim".toList, "title".toList] := rfl

example : standard.names = ["capitalize".toList, "length".toList, "lower".toList, "title".toList,
    "trim".toList, "upper".toList] := by decide

end Filters

end DocTemplate
