import DocTemplate.Proofs.Token.Scan

/-!
# The tokens of a source cover it

Placed one behind the other, the tokens of a source give it back: no byte is lost and none belongs
to two tokens. The span of a tag lies in what is consumed with it and holds the tag as it is
written, and all ranges start and end between characters.
-/

namespace DocTemplate

open Text

/-- A token placed at a byte offset. -/
def Token.placedAt (offset : Nat) (token : Token) : PlacedToken :=
  ⟨token, ⟨offset, offset + utf8Size token.source⟩, match token with
    | .tag t => ⟨offset + utf8Size t.lead, offset + utf8Size t.lead + utf8Size t.raw⟩
    | _ => ⟨offset, offset + utf8Size token.source⟩⟩

/-- The first token is placed at the offset, and the rest behind it. -/
theorem placeTokens_cons (offset : Nat) (token : Token) (tokens : List Token) :
    placeTokens offset (token :: tokens) =
      token.placedAt offset :: placeTokens (offset + utf8Size token.source) tokens := rfl

/-- A placed token stands behind the tokens in front of it. -/
theorem exists_of_mem_placeTokens {offset : Nat} {tokens : List Token} {p : PlacedToken}
    (h : p ∈ placeTokens offset tokens) :
    ∃ pre token post, tokens = pre ++ token :: post ∧
      p = token.placedAt (offset + utf8Size (pre.flatMap Token.source)) := by
  induction tokens generalizing offset with
  | nil => cases h
  | cons token tokens ih =>
    rw [placeTokens_cons] at h
    rcases List.mem_cons.mp h with rfl | h
    · exact ⟨[], token, tokens, rfl, rfl⟩
    · obtain ⟨pre, token', post, rfl, rfl⟩ := ih h
      refine ⟨token :: pre, token', post, rfl, ?_⟩
      rw [List.flatMap_cons, utf8Size_append, Nat.add_assoc]

/-- What is consumed with a token at some place starts there or further on. -/
theorem le_first_of_mem_placeTokens {offset : Nat} {tokens : List Token} {p : PlacedToken}
    (h : p ∈ placeTokens offset tokens) : offset ≤ p.consumed.first := by
  obtain ⟨pre, token, post, -, rfl⟩ := exists_of_mem_placeTokens h
  exact Nat.le_add_right ..

/-- Placed tokens consume ranges one behind the other. -/
theorem pairwise_placeTokens (offset : Nat) (tokens : List Token) :
    (placeTokens offset tokens).Pairwise fun p q => p.consumed.last ≤ q.consumed.first := by
  induction tokens generalizing offset with
  | nil => exact List.Pairwise.nil
  | cons token tokens ih =>
    rw [placeTokens_cons]
    exact List.pairwise_cons.mpr ⟨fun q hq => le_first_of_mem_placeTokens hq, ih _⟩

/-- What a placed token stands for in a source: a tag for the bytes that are consumed with it, and
any other token for what it holds. -/
def PlacedToken.quote (source : Text) (p : PlacedToken) : Option Text :=
  match p.token with
  | .text t => some t
  | .tag _ => slice p.consumed.first p.consumed.last source
  | .escaped literal => some (notVar ++ literal)

/-- A token in its place stands for its part of the source. -/
theorem quote_placedAt (before : Text) (token : Token) (rest : Text) :
    (token.placedAt (utf8Size before)).quote (before ++ token.source ++ rest) =
      some token.source := by
  cases token with
  | text t => rfl
  | escaped literal => rfl
  | tag t => exact slice_append before t.source rest

private theorem mapM_quote_placeTokens (before : Text) (tokens : List Token) (rest : Text) :
    (placeTokens (utf8Size before) tokens).mapM
        (PlacedToken.quote (before ++ tokens.flatMap Token.source ++ rest)) =
      some (tokens.map Token.source) := by
  induction tokens generalizing before with
  | nil => rfl
  | cons token tokens ih =>
    have hfirst := quote_placedAt before token (tokens.flatMap Token.source ++ rest)
    have hrest := ih (before ++ token.source)
    rw [utf8Size_append] at hrest
    simp only [List.append_assoc] at hfirst hrest
    simp [placeTokens_cons, List.mapM_cons, hfirst, hrest]

/-- Placed tokens cover a source. -/
structure Covers (source : Text) (placed : List PlacedToken) : Prop where
  /-- What they stand for, in order, is the source. -/
  whole : (placed.mapM (PlacedToken.quote source)).map List.flatten = some source
  /-- The span of a tag holds the tag as it is written. -/
  raw : ∀ p ∈ placed, ∀ t, p.token = .tag t → slice p.span.first p.span.last source = some t.raw
  /-- A span lies in what is consumed. -/
  span : ∀ p ∈ placed, p.consumed.first ≤ p.span.first ∧ p.span.first ≤ p.span.last ∧
    p.span.last ≤ p.consumed.last
  /-- All ranges lie in the source. -/
  bound : ∀ p ∈ placed, p.consumed.last ≤ utf8Size source
  /-- All ranges start and end between characters. -/
  boundary : ∀ p ∈ placed, ∀ o ∈ [p.consumed.first, p.consumed.last, p.span.first, p.span.last],
    source.IsBoundary o
  /-- What is consumed is ascending, and no two tokens consume the same byte. -/
  ascending : placed.Pairwise fun p q => p.consumed.last ≤ q.consumed.first

/-- Every placed token of a source stands in front of and behind the rest of it. -/
theorem exists_place_of_scan {s : Settings} {source : Text} {tokens : List Token}
    (h : scan s source = .ok tokens) {p : PlacedToken} (hp : p ∈ placeTokens 0 tokens) :
    ∃ pre token post, tokens = pre ++ token :: post ∧
      source = pre.flatMap Token.source ++ token.source ++ post.flatMap Token.source ∧
      p = token.placedAt (utf8Size (pre.flatMap Token.source)) := by
  obtain ⟨pre, token, post, rfl, rfl⟩ := exists_of_mem_placeTokens hp
  refine ⟨pre, token, post, rfl, ?_, by rw [Nat.zero_add]⟩
  rw [← source_of_scan h, List.flatMap_append, List.flatMap_cons, List.append_assoc]

/-- The span of a token lies in what is consumed with it. -/
theorem span_placedAt (offset : Nat) (token : Token) :
    offset ≤ (token.placedAt offset).span.first ∧
      (token.placedAt offset).span.first ≤ (token.placedAt offset).span.last ∧
      (token.placedAt offset).span.last ≤ (token.placedAt offset).consumed.last := by
  cases token with
  | tag t =>
    simp only [Token.placedAt, Token.source, Tag.source, utf8Size_append]
    omega
  | text t => exact ⟨Nat.le_refl _, Nat.le_add_right .., Nat.le_refl _⟩
  | escaped literal => exact ⟨Nat.le_refl _, Nat.le_add_right .., Nat.le_refl _⟩

private theorem isBoundary_placedAt (before : Text) (token : Token) (rest : Text) :
    ∀ o ∈ [(token.placedAt (utf8Size before)).consumed.first,
        (token.placedAt (utf8Size before)).consumed.last,
        (token.placedAt (utf8Size before)).span.first,
        (token.placedAt (utf8Size before)).span.last],
      (before ++ token.source ++ rest).IsBoundary o := by
  have hfirst : (before ++ token.source ++ rest).IsBoundary (utf8Size before) := by
    rw [List.append_assoc]
    exact isBoundary_append before _
  have hlast : (before ++ token.source ++ rest).IsBoundary
      (utf8Size before + utf8Size token.source) := by
    rw [← utf8Size_append]
    exact isBoundary_append (before ++ token.source) rest
  have hspan : (before ++ token.source ++ rest).IsBoundary
        (token.placedAt (utf8Size before)).span.first ∧
      (before ++ token.source ++ rest).IsBoundary
        (token.placedAt (utf8Size before)).span.last := by
    cases token with
    | text t => exact ⟨hfirst, hlast⟩
    | escaped literal => exact ⟨hfirst, hlast⟩
    | tag t =>
      have hlead := isBoundary_append (before ++ t.lead) (t.raw ++ t.trail ++ rest)
      have hraw := isBoundary_append (before ++ t.lead ++ t.raw) (t.trail ++ rest)
      simp only [utf8Size_append, List.append_assoc] at hlead hraw
      simp only [Token.placedAt, Token.source, Tag.source, List.append_assoc]
      exact ⟨hlead, by rwa [Nat.add_assoc]⟩
  intro o ho
  simp only [List.mem_cons, List.not_mem_nil, or_false] at ho
  rcases ho with rfl | rfl | rfl | rfl
  · exact hfirst
  · exact hlast
  · exact hspan.1
  · exact hspan.2

/-- The tokens of a source, placed one behind the other, cover it. -/
theorem covers_of_scan (s : Settings) (source : Text) (tokens : List Token)
    (h : scan s source = .ok tokens) : Covers source (placeTokens 0 tokens) := by
  have hsource := source_of_scan h
  refine ⟨?_, ?_, ?_, ?_, ?_, pairwise_placeTokens 0 tokens⟩
  · have hquotes := mapM_quote_placeTokens [] tokens []
    rw [List.nil_append, List.append_nil, hsource] at hquotes
    rw [← utf8Size_nil, hquotes, Option.map_some, ← List.flatMap_def, hsource]
  · intro p hp t ht
    obtain ⟨pre, token, post, -, rfl, rfl⟩ := exists_place_of_scan h hp
    cases ht
    have hslice := slice_append (pre.flatMap Token.source ++ t.lead) t.raw
      (t.trail ++ post.flatMap Token.source)
    simpa [Token.placedAt, Token.source, Tag.source] using hslice
  · intro p hp
    obtain ⟨pre, token, post, -, -, rfl⟩ := exists_place_of_scan h hp
    exact span_placedAt _ token
  · intro p hp
    obtain ⟨pre, token, post, -, rfl, rfl⟩ := exists_place_of_scan h hp
    rw [utf8Size_append, utf8Size_append]
    exact Nat.le_add_right ..
  · intro p hp
    obtain ⟨pre, token, post, -, rfl, rfl⟩ := exists_place_of_scan h hp
    exact isBoundary_placedAt _ token _

/-- A document with an isolated statement between wide characters and an escaped interpolation. -/
theorem covers_of_scan_condition_line :
    scan {} "é\n {% if x %} \r\nnot_var{{ y }}".toList =
        .ok [.text "é\n".toList,
          .tag ⟨.statement .condition, "if x".toList, " ".toList, "{% if x %}".toList,
            " \r\n".toList, true, false⟩,
          .escaped "{{ y }}".toList] ∧
      Covers "é\n {% if x %} \r\nnot_var{{ y }}".toList
        (placeTokens 0 [.text "é\n".toList,
          .tag ⟨.statement .condition, "if x".toList, " ".toList, "{% if x %}".toList,
            " \r\n".toList, true, false⟩,
          .escaped "{{ y }}".toList]) :=
  ⟨by decide +kernel, covers_of_scan {} _ _ (by decide +kernel)⟩

end DocTemplate
