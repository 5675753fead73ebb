import DocTemplate.Proofs.Text.Crlf
import DocTemplate.Proofs.Token.Scan

/-!
# Tokens keep line ends whole

Where a source is cut into tokens, no line feed is separated from the carriage return in front of
it: a tag starts and ends with a brace, what a tag takes along behind it goes through a line feed,
and the text in front of its line ends with one.
-/

namespace DocTemplate

open Text

/-- What a mark holds of its source. -/
def Mark.written : Mark → Text
  | .tag _ _ raw _ => raw
  | .escaped literal => literal

/-- What a token may put into a document as text: for a tag, the tag as it is written. -/
def Token.written : Token → Text
  | .text t => t
  | .tag t => t.raw
  | .escaped literal => literal

/-! ## Marks -/

/-- A mark and the text in front of it keep their line ends whole. -/
def Item.IsCrlf (i : Item) : Prop := Text.IsCrlf i.gap ∧ Text.IsCrlf i.mark.written

/-- A construct starts with a brace. -/
theorem Construct.head?_raw (c : Construct) : c.raw.head? = some '{' := rfl

/-- Marks and the texts between them keep the line ends of the source whole. -/
theorem isCrlf_collectItems (s : Settings) {pending : Text} {cs : List Construct} {tail : Text}
    (h : IsCrlf (pending ++ cs.flatMap Construct.source ++ tail)) :
    (∀ i ∈ (collectItems s pending cs tail).1, i.IsCrlf) ∧
      IsCrlf (collectItems s pending cs tail).2 := by
  induction cs generalizing pending with
  | nil => exact ⟨nofun, by simpa [collectItems] using h⟩
  | cons c cs ih =>
    have hsplit : pending ++ (c :: cs).flatMap Construct.source ++ tail =
        (pending ++ c.gap) ++ (c.raw ++ (cs.flatMap Construct.source ++ tail)) := by
      simp [Construct.source]
    have hwhole := h
    rw [hsplit] at hwhole
    have hgap : IsCrlf (pending ++ c.gap) := hwhole.of_append
    have hconstruct : IsCrlf (c.raw ++ (cs.flatMap Construct.source ++ tail)) := by
      apply hwhole.of_append_of_head?
      rw [List.head?_append, c.head?_raw, Option.some_or]
      decide
    have hrest : IsCrlf ([] ++ cs.flatMap Construct.source ++ tail) := by
      apply hconstruct.behind
      rw [c.getLast?_raw]
      decide
    rw [collectItems]
    cases hreading : c.reading s with
    | plain =>
      apply ih
      rwa [List.flatMap_cons, ← List.append_assoc] at h
    | tag kind content =>
      obtain ⟨hitems, htail⟩ := ih hrest
      exact ⟨List.forall_mem_cons.mpr ⟨⟨hgap, hconstruct.of_append⟩, hitems⟩, htail⟩
    | escaped =>
      obtain ⟨hitems, htail⟩ := ih hrest
      rw [← dropSuffix_append (suffix_of_reading_eq_escaped hreading), ← List.append_assoc] at hgap
      exact ⟨List.forall_mem_cons.mpr ⟨⟨hgap.of_append, hconstruct.of_append⟩, hitems⟩, htail⟩

/-! ## Tokens -/

section Weave

variable {items : List Item} {tail : Text} (hitems : ∀ i ∈ items, i.IsCrlf) (htail : IsCrlf tail)

include hitems htail

private theorem isCrlf_nextText : IsCrlf (nextText items tail) := by
  cases items with
  | nil => exact htail
  | cons i items => exact (hitems i List.mem_cons_self).1

/-- Behind what an isolated tag takes along line ends are whole. -/
private theorem isCrlf_drop_lineTrail :
    IsCrlf ((nextText items tail).drop (lineTrail items tail).length) := by
  cases items with
  | nil => exact htail.drop_throughLineFeed
  | cons i items =>
    have hgap : IsCrlf i.gap := (hitems i List.mem_cons_self).1
    rw [nextText, lineTrail]
    split
    · exact hgap.drop_throughLineFeed
    · exact hgap

end Weave

private theorem isCrlf_textToken_append {t : Text} (ht : IsCrlf t) {tokens : List Token}
    (h : ∀ token ∈ tokens, IsCrlf token.written) :
    ∀ token ∈ textToken t ++ tokens, IsCrlf token.written := by
  intro token hmem
  rcases List.mem_append.mp hmem with hmem | hmem
  · obtain rfl := eq_text_of_mem_textToken hmem
    exact ht
  · exact h token hmem

/-- Tokens keep the line ends of what they are woven from whole, if the first text that is left by
the tag in front of them does. -/
theorem isCrlf_weave {clear : Bool} {taken : Nat} {items : List Item} {tail : Text}
    (hitems : ∀ i ∈ items, i.IsCrlf) (htail : IsCrlf tail)
    (htaken : IsCrlf ((nextText items tail).drop taken)) :
    ∀ token ∈ weave clear taken items tail, IsCrlf token.written := by
  induction items generalizing clear taken with
  | nil =>
    rw [weave, ← List.append_nil (textToken _)]
    exact isCrlf_textToken_append htaken (by simp)
  | cons i rest ih =>
    obtain ⟨whole, mark⟩ := i
    obtain ⟨⟨-, hmark⟩, hrest⟩ := List.forall_mem_cons.mp hitems
    have hnext : IsCrlf ((nextText rest tail).drop 0) := isCrlf_nextText hrest htail
    rw [nextText] at htaken
    cases mark with
    | escaped literal =>
      rw [weave]
      apply isCrlf_textToken_append htaken
      exact List.forall_mem_cons.mpr ⟨hmark, ih hrest hnext⟩
    | tag kind content raw fenced =>
      rw [weave]
      dsimp only
      split
      · apply isCrlf_textToken_append htaken.beforeLastLine
        exact List.forall_mem_cons.mpr ⟨hmark, ih hrest (isCrlf_drop_lineTrail hrest htail)⟩
      · apply isCrlf_textToken_append htaken
        exact List.forall_mem_cons.mpr ⟨hmark, ih hrest hnext⟩

/-- The tokens of a source keep its line ends whole. -/
theorem isCrlf_of_scan {s : Settings} {source : Text} {tokens : List Token}
    (h : scan s source = .ok tokens) (hsource : IsCrlf source) :
    ∀ token ∈ tokens, IsCrlf token.written := by
  obtain ⟨cut, hcut, rfl⟩ := scan_eq_ok_iff.mp h
  rw [← Cut.source_of_ofFlagged hcut] at hsource
  have hwhole : IsCrlf ([] ++ cut.constructs.flatMap Construct.source ++ cut.tail) := hsource
  obtain ⟨hitems, htail⟩ := isCrlf_collectItems s hwhole
  exact isCrlf_weave hitems htail (isCrlf_nextText hitems htail)

end DocTemplate
