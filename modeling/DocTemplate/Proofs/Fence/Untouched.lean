import DocTemplate.Proofs.Node.Interpolation
import DocTemplate.Proofs.Token.Cover

/-!
# Fenced code is left as it is

While tags in fenced code are off, a tag that opens on an unfenced line may still close in fenced
code below. Such a tag holds a backtick, so it says nothing that a statement or an interpolation may
say: as a statement it keeps the document from being parsed, and as an interpolation it is text.
What is text stands in the tree as it is written.
-/

namespace DocTemplate

open Fence Text

/-- A tag says every visible character between its delimiters, dashes perhaps left out. -/
theorem Tag.Sound.exists_inner {t : Tag} (h : t.Sound) :
    ∃ (d : Delimiter) (inner : Text), t.raw = d.opener ++ inner ++ d.closer ∧
      ∀ c ∈ inner, isBlank c = false → c ≠ '-' → c ∈ t.content := by
  have hsays := h.inner
  cases hkind : t.kind with
  | statement k =>
    rw [hkind] at hsays
    obtain ⟨inner, hraw, hcontent⟩ := hsays
    refine ⟨.statement, inner, hraw, ?_⟩
    intro c hc hvisible hdash
    rw [hcontent]
    exact mem_statementContent hc hvisible hdash
  | interpolation =>
    rw [hkind] at hsays
    obtain ⟨inner, hraw, hcontent⟩ := hsays
    refine ⟨.interpolation, inner, hraw, ?_⟩
    intro c hc hvisible _
    rw [hcontent]
    exact mem_trim hc hvisible

/-- A tag that says an expression is written without backticks, and its last character is a
brace. -/
theorem Tag.Sound.exists_raw_eq {t : Tag} (h : t.Sound)
    (hcontent : ∀ c ∈ t.content, isExpressionChar c = true) :
    ∃ front, t.raw = front ++ ['}'] ∧ '\x60' ∉ front := by
  obtain ⟨d, inner, hraw, hinner⟩ := h.exists_inner
  have hbacktick : '\x60' ∉ inner := by
    intro hmem
    have hchar := hcontent _ (hinner _ hmem (by decide) (by decide))
    exact absurd hchar (by decide)
  refine ⟨d.opener ++ inner ++ [d.closingMark], ?_, ?_⟩
  · rw [hraw]
    simp [Delimiter.closer]
  · cases d <;> simpa [Delimiter.opener, Delimiter.mark, Delimiter.closingMark] using hbacktick

/-- A tag that starts on an unfenced line and says an expression covers unfenced lines only. -/
theorem Tag.Sound.unfenced {t : Tag} (h : t.Sound)
    (hcontent : ∀ c ∈ t.content, isExpressionChar c = true) {flags : List Bool} {rest : Text}
    (hdescribes : Describes flags (t.source ++ rest))
    (hstart : (flagsAfter flags t.lead).headD false = false) : Unfenced flags t.source := by
  obtain ⟨front, hraw, hfront⟩ := h.exists_raw_eq hcontent
  have hlead : Unfenced flags t.lead := by
    rw [flagsAfter_of_not_mem h.lead] at hstart
    exact unfenced_of_line hstart fun hmem => h.lead (List.dropLast_subset _ hmem)
  have hplace : t.source ++ rest = t.lead ++ (front ++ '}' :: (t.trail ++ rest)) := by
    simp [Tag.source, hraw]
  have htag : Unfenced (flagsAfter flags t.lead) t.raw := by
    rw [hplace] at hdescribes
    rw [hraw]
    exact unfenced_of_no_backtick hdescribes.after hstart hfront (by decide) (by decide)
  -- The trail ends the line on which the tag ends.
  have hend : (flagsAfter flags (t.lead ++ t.raw)).headD false = false := by
    rw [flagsAfter_append, hraw, flagsAfter_append _ front,
      flagsAfter_of_not_mem (t := ['}']) (by decide)]
    exact htag front '}' [] hraw
  exact (hlead.append htag).append (unfenced_of_line hend h.trail)

/-- No byte of a range is on a fenced line. -/
def Span.SparesFences (source : Text) (range : Span) : Prop :=
  ∀ o, range.first ≤ o → o < range.last → isInside source o = false

/-- What of a token is dropped or interpreted spares fenced lines, and the rest is text of the tree:
a tag spares them, unless it is an interpolation that is kept as text, and so does the word that
escapes an interpolation. -/
def PlacedToken.SparesFences (source : Text) (nodes : List Node) (p : PlacedToken) : Prop :=
  match p.token with
  | .text t => t.map .character <:+: Node.symbolsAll nodes
  | .tag t =>
    (t.kind = .interpolation ∧ Pipe.ofText? t.content = none ∧
      (∀ (b : Builder) place, b.accept place p.token = .ok (b.pushText t.source)) ∧
      t.source.map .character <:+: Node.symbolsAll nodes) ∨
    p.consumed.SparesFences source
  | .escaped literal =>
    Span.SparesFences source ⟨p.consumed.first, p.consumed.first + utf8Size notVar⟩ ∧
      literal.map .character <:+: Node.symbolsAll nodes

private theorem sparesFences_of_unfenced {before part rest : Text}
    (h : Unfenced (flagsAfter (lineFlags (before ++ part ++ rest)) before) part) :
    Span.SparesFences (before ++ part ++ rest) ⟨utf8Size before, utf8Size before + utf8Size part⟩ :=
  fun _ hfirst hlast => h.isInside_eq_false hfirst hlast

/-- An interpolation that names no path is text from its first to its last character. -/
theorem Tag.Sound.accept_eq_pushText {t : Tag} (h : t.Sound) (hkind : t.kind = .interpolation)
    (hpipe : Pipe.ofText? t.content = none) (b : Builder) (place : Location) :
    b.accept place (.tag t) = .ok (b.pushText t.source) := by
  rw [h.source_eq_raw hkind]
  exact Builder.accept_of_not_isWrittenAs hkind (Pipe.ofText?_eq_none_iff.mp hpipe) b place

/-- While tags in fenced code are off, a document that parses has no byte on a fenced line that is
dropped or interpreted, and what is text in it stands in the tree. -/
theorem sparesFences_of_parsed (s : Settings) (source : Text) (tokens : List Token)
    (nodes : List Node) (hs : s.conditionsInCode = false) (hscan : scan s source = .ok tokens)
    (hnodes : Node.ofTokens tokens = .ok nodes) :
    ∀ p ∈ placeTokens 0 tokens, p.SparesFences source nodes := by
  intro p hp
  obtain ⟨pre, token, post, rfl, hsource, rfl⟩ := exists_place_of_scan hscan hp
  have hmem : token ∈ pre ++ token :: post := List.mem_append_right pre List.mem_cons_self
  have hstart := (along_of_scan hs hscan).of_append
  have hsound := sound_of_scan hscan token hmem
  have hdescribes := describes_lineFlags source
  cases token with
  | text t => exact isInfix_symbolsAll_of_ofTokens hnodes fun _ _ hread => hread
  | escaped literal =>
    refine ⟨?_, isInfix_symbolsAll_of_ofTokens hnodes fun _ _ hread => hread⟩
    rw [Token.StartsUnfenced] at hstart
    have hsplit : source = pre.flatMap Token.source ++ notVar ++
        (literal ++ post.flatMap Token.source) := by
      rw [hsource]
      simp [Token.source]
    rw [hsplit] at hstart ⊢
    exact sparesFences_of_unfenced (unfenced_of_line hstart (by decide))
  | tag t =>
    have hexpression (hcontent : ∀ c ∈ t.content, isExpressionChar c = true) :
        (Token.placedAt (utf8Size (pre.flatMap Token.source)) (.tag t)).SparesFences source
          nodes := by
      rw [hsource, List.append_assoc] at hdescribes
      have hunfenced := hsound.unfenced hcontent hdescribes.after
        (by rwa [← List.append_assoc, ← hsource])
      rw [← List.append_assoc] at hunfenced
      rw [hsource]
      exact Or.inr (sparesFences_of_unfenced hunfenced)
    cases hkind : t.kind with
    | statement k =>
      obtain ⟨b, hb, -⟩ := Builder.ofTokens_eq_ok_iff.mp hnodes
      obtain ⟨place, b₁, b₂, hobeys⟩ := Builder.exists_obeys_of_mem hb hmem hkind
      exact hexpression hobeys.isExpressionChar
    | interpolation =>
      cases hpipe : Pipe.ofText? t.content with
      | some pipe => exact hexpression (Pipe.isExpressionChar_of_ofText? hpipe)
      | none =>
        have hunread := Pipe.ofText?_eq_none_iff.mp hpipe
        refine Or.inl ⟨hkind, hpipe, hsound.accept_eq_pushText hkind hpipe, ?_⟩
        rw [hsound.source_eq_raw hkind]
        exact isInfix_symbolsAll_of_ofTokens hnodes fun _ _ hread =>
          Tag.ReadsAs.eq_map_character hread hkind hunread

/-- A condition around an interpolation that closes in fenced code. -/
def closedInFence : Text :=
  "{% if a %}\n".toList ++ "\x7b\x7b a\n```\n\x7b\x7b b \x7d\x7d\n```\n".toList ++
    "not_var{{ c }}{% endif %}".toList

/-- The tokens of this source. -/
def closedInFenceTokens : List Token :=
  [.tag ⟨.statement .condition, "if a".toList, [], "{% if a %}".toList, ['\n'], true, false⟩,
    .tag ⟨.interpolation, "a\n```\n\x7b\x7b b".toList, [],
      "\x7b\x7b a\n```\n\x7b\x7b b \x7d\x7d".toList, [], false, false⟩,
    .text "\n```\n".toList, .escaped "{{ c }}".toList,
    .tag ⟨.statement .endCondition, "endif".toList, [], "{% endif %}".toList, [], false, false⟩]

/-- Their tree: the interpolation is text together with what stands behind it. -/
def closedInFenceTree : List Node :=
  [.conditional (Path.ofName ['a'] rfl)
    [.text ("\x7b\x7b a\n```\n\x7b\x7b b \x7d\x7d\n```\n".toList ++ "{{ c }}".toList)] []]

/-- The interpolation is kept as text between statements that are obeyed. -/
theorem sparesFences_of_parsed_closedInFence :
    scan {} closedInFence = .ok closedInFenceTokens ∧
      Node.ofTokens closedInFenceTokens = .ok closedInFenceTree ∧
      ∀ p ∈ placeTokens 0 closedInFenceTokens, p.SparesFences closedInFence closedInFenceTree := by
  have hscan : scan {} closedInFence = .ok closedInFenceTokens := by decide +kernel
  have hnodes : Node.ofTokens closedInFenceTokens = .ok closedInFenceTree := rfl
  exact ⟨hscan, hnodes, sparesFences_of_parsed {} _ _ _ rfl hscan hnodes⟩

end DocTemplate
