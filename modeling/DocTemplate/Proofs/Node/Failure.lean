import DocTemplate.Proofs.Filter
import DocTemplate.Proofs.Node.Symbols

/-!
# Where rendering fails

Nothing but an interpolation can make a tree fail, and only if it names a filter that nobody has
registered. The failure then quotes this very interpolation, however deep in the tree it stands and
whatever the loops around it bind.
-/

namespace DocTemplate

/-- The failure quotes an interpolation with one of its filters, which is unknown. -/
def Interpolation.FailsWith (i : Interpolation) (filters : Filters) (failure : Failure) : Prop :=
  ∃ name ∈ i.pipe.filters, filters.find? name = none ∧
    failure = ⟨i.location, .unknownFilter name i.raw filters.names⟩

/-- An interpolation fails only because of its filters. -/
theorem Scope.failsWith_of_interpolate {scope : Scope} {filters : Filters} {i : Interpolation}
    {failure : Failure} (h : scope.interpolate filters i = .error failure) :
    i.FailsWith filters failure := by
  obtain ⟨name, rfl, hmem, hunlisted⟩ := Filters.exists_unlisted_of_interpolate h
  exact ⟨name, hmem, Filters.not_mem_names_iff.mp hunlisted, rfl⟩

private theorem eq_error_of_bind {α β ε : Type} {x : Except ε α} {f : α → Except ε β} {e : ε}
    (h : (x >>= f) = .error e) : x = .error e ∨ ∃ a, x = .ok a ∧ f a = .error e := by
  cases x with
  | error e' =>
    cases h
    exact Or.inl rfl
  | ok a => exact Or.inr ⟨a, rfl, h⟩

private theorem exists_of_mapM_eq_error {α β ε : Type} {f : α → Except ε β} {items : List α} {e : ε}
    (h : items.mapM f = .error e) : ∃ item ∈ items, f item = .error e := by
  induction items with
  | nil => cases h
  | cons item items ih =>
    rw [List.mapM_cons] at h
    rcases eq_error_of_bind h with hitem | ⟨y, -, hrest⟩
    · exact ⟨item, List.mem_cons_self, hitem⟩
    · rcases eq_error_of_bind hrest with hrest | ⟨ys, -, hpure⟩
      · obtain ⟨item', hmem, hitem⟩ := ih hrest
        exact ⟨item', List.mem_cons_of_mem item hmem, hitem⟩
      · cases hpure

mutual

/-- A node fails with one of the interpolations in it. -/
theorem Node.exists_failsWith_of_render {filters : Filters} {scope : Scope} {failure : Failure}
    (node : Node) (h : node.render filters scope = .error failure) :
    ∃ i, .interpolation i ∈ node.symbols ∧ i.FailsWith filters failure := by
  cases node with
  | text t => cases h
  | interpolation i => exact ⟨i, List.mem_singleton_self _, Scope.failsWith_of_interpolate h⟩
  | loop head layout body =>
    rw [render] at h
    rcases eq_error_of_bind h with hpieces | ⟨pieces, -, hjoin⟩
    · obtain ⟨item, -, hitem⟩ := exists_of_mapM_eq_error hpieces
      obtain ⟨i, hmem, hfails⟩ := Node.exists_failsWith_of_renderAll body hitem
      exact ⟨i, by simp [symbols, hmem], hfails⟩
    · cases hjoin
  | conditional condition consequent alternative =>
    rw [render] at h
    split at h
    · obtain ⟨i, hmem, hfails⟩ := Node.exists_failsWith_of_renderAll consequent h
      exact ⟨i, by simp [symbols, hmem], hfails⟩
    · obtain ⟨i, hmem, hfails⟩ := Node.exists_failsWith_of_renderAll alternative h
      exact ⟨i, by simp [symbols, hmem], hfails⟩

/-- Nodes fail with one of the interpolations in them. -/
theorem Node.exists_failsWith_of_renderAll {filters : Filters} {scope : Scope} {failure : Failure}
    (nodes : List Node) (h : Node.renderAll filters scope nodes = .error failure) :
    ∃ i, .interpolation i ∈ Node.symbolsAll nodes ∧ i.FailsWith filters failure := by
  cases nodes with
  | nil => cases h
  | cons node rest =>
    rw [renderAll] at h
    rcases eq_error_of_bind h with hfirst | ⟨front, -, hback⟩
    · obtain ⟨i, hmem, hfails⟩ := Node.exists_failsWith_of_render node hfirst
      exact ⟨i, by simp [symbolsAll, hmem], hfails⟩
    · rcases eq_error_of_bind hback with hrest | ⟨back, -, hpure⟩
      · obtain ⟨i, hmem, hfails⟩ := Node.exists_failsWith_of_renderAll rest hrest
        exact ⟨i, by simp [symbolsAll, hmem], hfails⟩
      · cases hpure

end

/-- The tree of tokens fails with the interpolation of a tag among them, in its place. -/
theorem exists_tag_of_renderAll {tokens : List Token} {nodes : List Node}
    (hnodes : Node.ofTokens tokens = .ok nodes) {filters : Filters} {scope : Scope}
    {failure : Failure} (h : Node.renderAll filters scope nodes = .error failure) :
    ∃ front tag back pipe, tokens = front ++ .tag tag :: back ∧ tag.kind = .interpolation ∧
      Pipe.ofText? tag.content = some pipe ∧
      Interpolation.FailsWith ⟨pipe, tag.raw,
        (Location.start.after (front.flatMap Token.source)).after tag.lead⟩ filters failure := by
  obtain ⟨i, hmem, hfails⟩ := Node.exists_failsWith_of_renderAll nodes h
  have hother : Symbol.interpolation i ≠ .alternative := by simp
  obtain ⟨symbols, hread, hsame⟩ := exists_symbols_of_ofTokens hnodes
  have hsymbols : .interpolation i ∈ symbols := by
    rw [← mem_withoutEmptyAlternatives hother, ← hsame, mem_withoutEmptyAlternatives hother]
    exact hmem
  obtain ⟨front, tag, back, htokens, hkind, hwritten, hraw, hplace⟩ := hread.exists_tag hsymbols
  have hpipe := Pipe.ofText?_eq_some_iff_isWrittenAs.mpr hwritten
  refine ⟨front, tag, back, i.pipe, htokens, hkind, hpipe, ?_⟩
  rw [hraw, ← hplace]
  exact hfails

end DocTemplate
