import DocTemplate.Proofs.Token.Cover

/-!
# Where the tags of a source stand

A construct is a tag or none by its own text and the word in front of it; the settings only choose
among the tags by their kind. So the tags of a source under given settings, each with the source in
front of it, are those of its constructs whose kind is switched on, whatever the tags before them
take along. No interpolation among them has the escaping word directly in front of it.
-/

namespace DocTemplate

open Text

/-- A tag with the source in front of it, whatever is dropped with it. -/
structure Occurrence where
  /-- What stands in front of the tag. -/
  before : Text
  /-- Its kind. -/
  kind : TagKind
  /-- What it says. -/
  content : Text
  /-- The tag as it is written. -/
  raw : Text
  /-- Whether it starts on a line of fenced code. -/
  fenced : Bool

/-- The same tag with more source in front of it. -/
def Occurrence.behind (before : Text) (o : Occurrence) : Occurrence :=
  { o with before := before ++ o.before }

section Occurrences

variable {α : Type} (source : α → Text) (tag? : α → Option Occurrence)

/-- The tags of pieces that stand one behind the other: `source` is the part of the source that a
piece covers, and `tag?` the tag in it with what of the piece is in front of the tag. -/
def occurrences (before : Text) : List α → List Occurrence
  | [] => []
  | a :: rest =>
    ((tag? a).map (Occurrence.behind before)).toList ++ occurrences (before ++ source a) rest

/-- The tags of the first pieces come first, and the pieces are in front of the tags behind. -/
theorem occurrences_append (before : Text) (pieces pieces' : List α) :
    occurrences source tag? before (pieces ++ pieces') =
      occurrences source tag? before pieces ++
        occurrences source tag? (before ++ pieces.flatMap source) pieces' := by
  induction pieces generalizing before with
  | nil => simp [occurrences]
  | cons a pieces ih => simp [occurrences, ih]

end Occurrences

/-! ## Constructs -/

/-- The kind and the content of the tag that a construct is while every kind of tag is switched
on. -/
def Construct.says? (c : Construct) : Option (TagKind × Text) :=
  match c.delimiter with
  | .statement =>
    let content := statementContent c.inner
    ((words content).head?.bind Keyword.ofText?).map fun k => (.statement k, content)
  | .interpolation =>
    if notVar.isSuffixOf c.gap then none else some (.interpolation, trim c.inner)

/-- The tag that a construct is while every kind of tag is switched on. -/
def Construct.tag? (c : Construct) : Option Occurrence :=
  c.says?.map fun (kind, content) => ⟨c.gap, kind, content, c.raw, c.fenced⟩

/-- A construct that may be a tag is one exactly if its kind is switched on. -/
theorem Construct.reading_of_says {c : Construct} {kind : TagKind} {content : Text}
    (h : c.says? = some (kind, content)) (s : Settings) :
    c.reading s = if s.enables kind then .tag kind content else .plain := by
  unfold says? at h
  unfold reading
  cases hdelimiter : c.delimiter with
  | statement =>
    rw [hdelimiter] at h
    obtain ⟨k, hk, heq⟩ := Option.map_eq_some_iff.mp h
    cases heq
    simp only [hk]
  | interpolation =>
    simp only [hdelimiter] at h
    split at h
    · cases h
    · rename_i hgap
      cases h
      simp [hgap]

/-- Any other construct is no tag under any settings. -/
theorem Construct.reading_of_says_none {c : Construct} (h : c.says? = none) (s : Settings) :
    c.reading s = .plain ∨ c.reading s = .escaped := by
  unfold says? at h
  unfold reading
  cases hdelimiter : c.delimiter with
  | statement =>
    rw [hdelimiter] at h
    simp [Option.map_eq_none_iff.mp h]
  | interpolation =>
    simp only [hdelimiter] at h
    split at h
    · rename_i hgap
      simp only [hgap, if_true]
      split <;> (try split) <;> simp
    · cases h

/-- An interpolation that is a tag is not escaped. -/
theorem Construct.not_suffix_of_says {c : Construct} {content : Text}
    (h : c.says? = some (.interpolation, content)) : ¬ notVar <:+ c.gap := by
  unfold says? at h
  cases hdelimiter : c.delimiter with
  | statement =>
    rw [hdelimiter] at h
    obtain ⟨k, -, heq⟩ := Option.map_eq_some_iff.mp h
    cases heq
  | interpolation =>
    simp only [hdelimiter] at h
    split at h
    · cases h
    · rename_i hgap
      rwa [List.isSuffixOf_iff_suffix] at hgap

/-- Constructs with `before` in front of them: no interpolation among their tags has the escaping
word directly in front of it. -/
theorem not_suffix_of_mem_occurrences {before : Text} (hbefore : before = [] ∨
    before.getLast? = some '}') {cs : List Construct} {o : Occurrence}
    (ho : o ∈ occurrences Construct.source Construct.tag? before cs)
    (hkind : o.kind = .interpolation) : ¬ notVar <:+ o.before := by
  induction cs generalizing before with
  | nil => cases ho
  | cons c cs ih =>
    rcases List.mem_append.mp ho with ho | ho
    · obtain ⟨o', ho', rfl⟩ := Option.map_eq_some_iff.mp (Option.mem_toList.mp ho)
      obtain ⟨⟨kind, content⟩, hsays, rfl⟩ := Option.map_eq_some_iff.mp ho'
      obtain rfl : kind = .interpolation := hkind
      -- The word holds no brace, so it cannot reach into the construct before.
      rw [Occurrence.behind, ← List.isSuffixOf_iff_suffix,
        isSuffixOf_append (c := '}') (by decide) hbefore, List.isSuffixOf_iff_suffix]
      exact Construct.not_suffix_of_says hsays
    · refine ih (Or.inr ?_) ho
      simp [Construct.source, List.getLast?_append, Construct.getLast?_raw]

/-! ## Marks -/

/-- The tag that a mark is. -/
def Item.tag? (i : Item) : Option Occurrence :=
  match i.mark with
  | .tag kind content raw fenced => some ⟨i.gap, kind, content, raw, fenced⟩
  | .escaped _ => none

/-- Of the tags of constructs, those stay marks whose kind is switched on. -/
theorem occurrences_collectItems (s : Settings) (before pending : Text) (cs : List Construct)
    (tail : Text) :
    occurrences Item.source Item.tag? before (collectItems s pending cs tail).1 =
      (occurrences Construct.source Construct.tag? (before ++ pending) cs).filter
        (s.enables ·.kind) := by
  induction cs generalizing before pending with
  | nil => rfl
  | cons c cs ih =>
    rw [collectItems]
    cases hsays : c.says? with
    | none =>
      rcases Construct.reading_of_says_none hsays s with hreading | hreading
      · simp [hreading, ih, occurrences, Construct.tag?, hsays]
      · have hsource := source_of_reading_eq_escaped hreading pending
        simp [hreading, ih, occurrences, Construct.tag?, hsays, Item.tag?, hsource]
    | some said =>
      obtain ⟨kind, content⟩ := said
      rw [Construct.reading_of_says hsays s]
      by_cases hkind : s.enables kind = true
      · simp [hkind, ih, occurrences, Construct.tag?, hsays, Item.tag?, Item.source, Mark.source,
          Construct.source, Occurrence.behind]
      · simp [hkind, ih, occurrences, Construct.tag?, hsays, Occurrence.behind]

/-! ## Tokens -/

/-- The tag that a token is. -/
def Token.tag? : Token → Option Occurrence
  | .tag t => some ⟨t.lead, t.kind, t.content, t.raw, t.fenced⟩
  | _ => none

/-- Text in front of tokens is in front of their tags. -/
theorem occurrences_textToken (before t : Text) (tokens : List Token) :
    occurrences Token.source Token.tag? before (textToken t ++ tokens) =
      occurrences Token.source Token.tag? (before ++ t) tokens := by
  by_cases ht : t = []
  · simp [textToken, ht]
  · simp [textToken, ht, occurrences, Token.tag?, Token.source]

/-- Tags stay where their marks are, whatever is taken along with them. -/
theorem occurrences_weave (before : Text) (clear : Bool) {taken : Nat} (items : List Item)
    (tail : Text) (htaken : taken ≤ (nextText items tail).length) :
    occurrences Token.source Token.tag? (before ++ (nextText items tail).take taken)
        (weave clear taken items tail) =
      occurrences Item.source Item.tag? before items := by
  induction items generalizing before clear taken with
  | nil =>
    rw [weave, ← List.append_nil (textToken _), occurrences_textToken]
    rfl
  | cons i rest ih =>
    obtain ⟨whole, mark⟩ := i
    have hgap : before ++ whole.take taken ++ whole.drop taken = before ++ whole := by
      rw [List.append_assoc, List.take_append_drop]
    rw [nextText]
    cases mark with
    | escaped literal =>
      have hrest := ih (before ++ Item.source ⟨whole, .escaped literal⟩) false
        (Nat.zero_le (nextText rest tail).length)
      rw [weave, occurrences_textToken, hgap]
      simpa [occurrences, Token.tag?, Item.tag?, Item.source, Mark.source, Token.source] using hrest
    | tag kind content raw fenced =>
      obtain ⟨front, t, clear', taken', hweave, hwoven⟩ :=
        exists_weave_tag clear taken whole kind content raw fenced rest tail
      obtain ⟨rfl, rfl, rfl, rfl⟩ := Mark.tag.inj hwoven.mark_eq
      have hrest := ih (before ++ Item.source ⟨whole, .tag t.kind t.content t.raw t.fenced⟩) clear'
        hwoven.taken_le
      have hlead : before ++ whole.take taken ++ front ++ t.lead = before ++ whole := by
        rw [List.append_assoc, hwoven.gap_eq, hgap]
      rw [← hwoven.trail_eq] at hrest
      rw [hweave]
      simp only [occurrences_textToken, occurrences, Token.tag?, Item.tag?, Token.source,
        Tag.source, Occurrence.behind, Option.map_some, ← List.append_assoc, hlead]
      simpa [Item.source, Mark.source] using hrest

/-- The tags of a cut under given settings are those of its constructs whose kind is switched
on. -/
theorem occurrences_tokens (s : Settings) (cut : Cut) :
    occurrences Token.source Token.tag? [] (cut.tokens s) =
      (occurrences Construct.source Construct.tag? [] cut.constructs).filter
        (s.enables ·.kind) := by
  have hweave := occurrences_weave [] true (cut.items s).1 (cut.items s).2 (Nat.zero_le _)
  rw [List.take_zero, List.append_nil] at hweave
  exact hweave.trans (occurrences_collectItems s [] [] cut.constructs cut.tail)

/-! ## Places -/

/-- What of a placed tag does not depend on what is dropped with it. -/
structure TagSite where
  /-- Its kind. -/
  kind : TagKind
  /-- What it says. -/
  content : Text
  /-- The tag as it is written. -/
  raw : Text
  /-- The bytes of the tag as it is written. -/
  span : Span
  /-- Whether it starts on a line of fenced code. -/
  fenced : Bool
  deriving DecidableEq, Repr

/-- The site of a tag with the source in front of it. -/
def Occurrence.site (o : Occurrence) : TagSite :=
  ⟨o.kind, o.content, o.raw, ⟨utf8Size o.before, utf8Size o.before + utf8Size o.raw⟩, o.fenced⟩

/-- The site of a placed token, if it is a tag. -/
def PlacedToken.site? (p : PlacedToken) : Option TagSite :=
  match p.token with
  | .tag t => some ⟨t.kind, t.content, t.raw, p.span, t.fenced⟩
  | _ => none

/-- The sites of the tags among the tokens of a source, in order. -/
def tagSites (tokens : List Token) : List TagSite :=
  (placeTokens 0 tokens).filterMap PlacedToken.site?

private theorem site?_placedAt (before : Text) (token : Token) :
    (token.placedAt (utf8Size before)).site? =
      (token.tag?.map (Occurrence.behind before)).map Occurrence.site := by
  cases token with
  | text t => rfl
  | escaped literal => rfl
  | tag t =>
    simp [Token.placedAt, PlacedToken.site?, Token.tag?, Occurrence.behind, Occurrence.site]

/-- Tokens behind `before` have their tags where the source in front of these ends. -/
theorem filterMap_site?_placeTokens (before : Text) (tokens : List Token) :
    (placeTokens (utf8Size before) tokens).filterMap PlacedToken.site? =
      (occurrences Token.source Token.tag? before tokens).map Occurrence.site := by
  induction tokens generalizing before with
  | nil => rfl
  | cons token tokens ih =>
    have hrest := ih (before ++ token.source)
    rw [utf8Size_append] at hrest
    rw [placeTokens_cons, List.filterMap_cons, site?_placedAt, hrest, occurrences]
    cases token.tag? <;> rfl

/-- The tags of a cut under given settings stand where its constructs do. -/
theorem tagSites_tokens (s : Settings) (cut : Cut) :
    tagSites (cut.tokens s) =
      ((occurrences Construct.source Construct.tag? [] cut.constructs).map
        Occurrence.site).filter (s.enables ·.kind) := by
  have hsites := filterMap_site?_placeTokens [] (cut.tokens s)
  rw [utf8Size_nil, occurrences_tokens] at hsites
  rw [tagSites, hsites, List.filter_map]
  rfl

/-- No interpolation among the tags of a source has the escaping word directly in front of it. -/
theorem not_suffix_of_scan {s : Settings} {source : Text} {pre post : List Token} {t : Tag}
    (h : scan s source = .ok (pre ++ .tag t :: post)) (hkind : t.kind = .interpolation) :
    ¬ notVar <:+ pre.flatMap Token.source ++ t.lead := by
  obtain ⟨cut, -, htokens⟩ := scan_eq_ok_iff.mp h
  have htags := occurrences_tokens s cut
  rw [htokens, occurrences_append] at htags
  have hmem : (⟨pre.flatMap Token.source ++ t.lead, t.kind, t.content, t.raw, t.fenced⟩ :
      Occurrence) ∈ occurrences Token.source Token.tag? [] pre ++
        occurrences Token.source Token.tag? ([] ++ pre.flatMap Token.source) (.tag t :: post) :=
    List.mem_append_right _ List.mem_cons_self
  rw [htags] at hmem
  exact not_suffix_of_mem_occurrences (Or.inl rfl) (List.mem_filter.mp hmem).1 hkind

end DocTemplate
