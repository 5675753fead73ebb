import DocTemplate.Proofs.Token.Weave

/-!
# What scanning gives

A source that can be cut has tokens, and these tile it. Each of them is sound, and while tags in
fenced code are off each of them starts on an unfenced line.
-/

namespace DocTemplate

open Fence

variable {s : Settings} {source : Text} {tokens : List Token}

/-- The tokens of a source are those of its cut. -/
theorem scan_eq_ok_iff :
    scan s source = .ok tokens ↔
      ∃ cut, Cut.ofSource (!s.conditionsInCode) source = .ok cut ∧ cut.tokens s = tokens := by
  rw [scan]
  cases Cut.ofSource (!s.conditionsInCode) source with
  | error u => simp [Except.map]
  | ok cut => simp [Except.map]

/-- Scanning fails where the cut does. -/
theorem scan_eq_error_iff {u : Unterminated} :
    scan s source = .error u ↔ Cut.ofSource (!s.conditionsInCode) source = .error u := by
  rw [scan]
  cases Cut.ofSource (!s.conditionsInCode) source with
  | error u => simp [Except.map]
  | ok cut => simp [Except.map]

/-- The empty source has no tokens. -/
theorem scan_nil (s : Settings) : scan s [] = .ok [] :=
  scan_eq_ok_iff.mpr ⟨⟨[], []⟩, Cut.ofFlagged_of_none rfl, rfl⟩

/-- The tokens that a source is scanned into tile it. -/
theorem source_of_scan (h : scan s source = .ok tokens) :
    tokens.flatMap Token.source = source := by
  obtain ⟨cut, hcut, rfl⟩ := scan_eq_ok_iff.mp h
  have hitems := collectItems_source s [] cut.constructs cut.tail
  rw [Cut.tokens, weave_source true _ _ (Nat.zero_le _), List.drop_zero, hitems, List.nil_append]
  exact Cut.source_of_ofFlagged hcut

/-- The tokens of a source are sound. -/
theorem sound_of_scan (h : scan s source = .ok tokens) : ∀ token ∈ tokens, token.Sound := by
  obtain ⟨cut, -, rfl⟩ := scan_eq_ok_iff.mp h
  intro token htoken
  exact sound_of_mem_weave (fun i hi => saysInner_of_mem_collectItems hi) htoken

/-- The tokens of a source start on unfenced lines while tags in fenced code are off. -/
theorem along_of_scan (hs : s.conditionsInCode = false) (h : scan s source = .ok tokens) :
    Along Token.StartsUnfenced Token.source (lineFlags source) tokens := by
  obtain ⟨cut, hcut, rfl⟩ := scan_eq_ok_iff.mp h
  rw [hs] at hcut
  have hitems : Along Item.StartsUnfenced Item.source (lineFlags source) (cut.items s).1 :=
    along_collectItems cut.tail (Cut.along_of_ofFlagged hcut)
  exact along_weave true (Nat.zero_le _) hitems

end DocTemplate
