import DocTemplate.Proofs.Token.Openers
import DocTemplate.Proofs.Token.Sites

/-!
# What examined constructs become

Every construct that is examined becomes a tag, an escaped interpolation or a part of a text, and
which of them it becomes is told by the construct, by the word in front of it and by the settings.
-/

namespace DocTemplate

open Text

/-! ## What a construct is -/

namespace Examined

/-- A statement whose first word is a keyword, or an interpolation without the escaping word in
front of it, is a tag if its kind is switched on. -/
def IsTag (s : Settings) (c : Examined) : Prop :=
  match c.delimiter with
  | .statement => ∃ k : Keyword,
    (words (statementContent c.inner)).head? = some k.toText ∧ s.enables (.statement k) = true
  | .interpolation => s.enables .interpolation = true ∧ ¬ notVar <:+ c.before

/-- An interpolation with the escaping word in front of it is escaped if interpolations are switched
on and the word is not kept. -/
def IsEscaped (s : Settings) (c : Examined) : Prop :=
  c.delimiter = .interpolation ∧ s.enables .interpolation = true ∧ notVar <:+ c.before ∧
    s.keepNotVar = false

/-- The construct is the tag of a token. -/
def YieldsTag (placed : List PlacedToken) (c : Examined) : Prop :=
  ∃ p ∈ placed, ∃ t, p.token = .tag t ∧ p.span = c.range

/-- The construct is the literal of an escaped interpolation, behind the escaping word. -/
def YieldsEscaped (placed : List PlacedToken) (c : Examined) : Prop :=
  ∃ p ∈ placed, p.token = .escaped c.raw ∧ p.span.first + utf8Size notVar = c.range.first ∧
    p.span.last = c.range.last

/-- The construct is a part of a text. -/
def YieldsText (placed : List PlacedToken) (c : Examined) : Prop :=
  ∃ p ∈ placed, ∃ t, p.token = .text t ∧ p.span.first ≤ c.range.first ∧
    c.range.last ≤ p.span.last

end Examined

namespace Construct

/-- The construct behind a part of the source. -/
def examined (front : Text) (c : Construct) : Examined := ⟨front ++ c.gap, c.delimiter, c.inner⟩

variable {s : Settings} {front : Text} {c : Construct}

private theorem suffix_examined_iff (hfront : front = [] ∨ front.getLast? = some '}') :
    notVar <:+ (c.examined front).before ↔ notVar.isSuffixOf c.gap = true := by
  have hbrace : '}' ∉ notVar := by decide
  rw [← List.isSuffixOf_iff_suffix, examined, isSuffixOf_append hbrace hfront]

/-- What is read as a tag is one. -/
theorem isTag_examined_iff (hfront : front = [] ∨ front.getLast? = some '}') :
    (c.examined front).IsTag s ↔ ∃ kind content, c.reading s = .tag kind content := by
  cases hd : c.delimiter with
  | statement =>
    simp only [Examined.IsTag, examined, reading, hd]
    constructor
    · rintro ⟨k, hword, hk⟩
      have hkeyword : (words (statementContent c.inner)).head?.bind Keyword.ofText? = some k := by
        rw [hword]
        exact Keyword.ofText?_eq_some_iff.mpr rfl
      exact ⟨.statement k, statementContent c.inner, by simp [hkeyword, hk]⟩
    · rintro ⟨kind, content, hread⟩
      split at hread
      · rename_i k hkeyword
        obtain ⟨word, hword, hk⟩ := Option.bind_eq_some_iff.mp hkeyword
        obtain rfl := Keyword.ofText?_eq_some_iff.mp hk
        refine ⟨k, hword, ?_⟩
        by_contra henabled
        rw [if_neg henabled] at hread
        cases hread
      · cases hread
  | interpolation =>
    have hsuffix : notVar <:+ front ++ c.gap ↔ notVar.isSuffixOf c.gap = true :=
      suffix_examined_iff hfront
    simp only [Examined.IsTag, examined, reading, hd, hsuffix]
    cases s.enables .interpolation <;> cases notVar.isSuffixOf c.gap <;> cases s.keepNotVar <;> simp

/-- What is read as escaped is so. -/
theorem isEscaped_examined_iff (hfront : front = [] ∨ front.getLast? = some '}') :
    (c.examined front).IsEscaped s ↔ c.reading s = .escaped := by
  rw [Examined.IsEscaped, suffix_examined_iff hfront]
  cases hd : c.delimiter with
  | statement =>
    constructor
    · rintro ⟨hinterpolation, -⟩
      rw [examined, hd] at hinterpolation
      cases hinterpolation
    · intro hread
      simp only [reading, hd] at hread
      split at hread
      · split at hread <;> cases hread
      · cases hread
  | interpolation =>
    simp only [examined, reading, hd]
    cases s.enables .interpolation <;> cases notVar.isSuffixOf c.gap <;> cases s.keepNotVar <;> simp

end Construct

/-! ## Where constructs are among the marks -/

section Places

variable {s : Settings} {cut : Cut} {pre post : List Construct} {c : Construct}
  (h : cut.constructs = pre ++ c :: post)

include h

/-- A construct that is read as a tag is a mark in its place. -/
theorem exists_item_of_tag {kind : TagKind} {content : Text}
    (hread : c.reading s = .tag kind content) :
    ∃ front i back, (cut.items s).1 = front ++ i :: back ∧
      i.mark = .tag kind content c.raw c.fenced ∧
      front.flatMap Item.source ++ i.gap = pre.flatMap Construct.source ++ c.gap := by
  have hsource := collectItems_source s [] pre []
  have hitems : (cut.items s).1 = (collectItems s [] pre []).1 ++
      ⟨(collectItems s [] pre []).2 ++ c.gap, .tag kind content c.raw c.fenced⟩ ::
        (collectItems s [] post cut.tail).1 := by
    rw [Cut.items, h, collectItems_append, collectItems, hread]
  refine ⟨_, _, _, hitems, rfl, ?_⟩
  rw [← List.append_assoc, hsource, List.append_nil, List.nil_append]

/-- A construct that is read as escaped is a mark in its place. -/
theorem exists_item_of_escaped (hread : c.reading s = .escaped) :
    ∃ front i back, (cut.items s).1 = front ++ i :: back ∧ i.mark = .escaped c.raw ∧
      front.flatMap Item.source ++ i.source = pre.flatMap Construct.source ++ c.source := by
  have hsource := collectItems_source s [] pre []
  have hitems : (cut.items s).1 = (collectItems s [] pre []).1 ++
      ⟨(collectItems s [] pre []).2 ++ dropSuffix notVar c.gap, .escaped c.raw⟩ ::
        (collectItems s [] post cut.tail).1 := by
    rw [Cut.items, h, collectItems_append, collectItems, hread]
  refine ⟨_, _, _, hitems, rfl, ?_⟩
  rw [source_of_reading_eq_escaped hread, ← List.append_assoc, hsource, List.append_nil,
    List.nil_append]

/-- A construct that is read as text is a part of the text in front of a mark, or of the tail. -/
theorem exists_nextText_of_plain (hread : c.reading s = .plain) :
    ∃ front back before behind, (cut.items s).1 = front ++ back ∧
      nextText back (cut.items s).2 = before ++ c.raw ++ behind ∧
      front.flatMap Item.source ++ before = pre.flatMap Construct.source ++ c.gap := by
  have hsource := collectItems_source s [] pre []
  have hitems : cut.items s = ((collectItems s [] pre []).1 ++
      (prependText ((collectItems s [] pre []).2 ++ c.source) (collectItems s [] post cut.tail)).1,
      (prependText ((collectItems s [] pre []).2 ++ c.source)
        (collectItems s [] post cut.tail)).2) := by
    rw [Cut.items, h, collectItems_append, collectItems, hread, ← collectItems_pending,
      List.append_nil]
  have hnext (t : Text) (below : List Item × Text) :
      nextText (prependText t below).1 (prependText t below).2 = t ++ nextText below.1 below.2 := by
    obtain ⟨items, tail⟩ := below
    cases items <;> rfl
  rw [hitems]
  refine ⟨_, _, (collectItems s [] pre []).2 ++ c.gap,
    nextText (collectItems s [] post cut.tail).1 (collectItems s [] post cut.tail).2, rfl, ?_, ?_⟩
  · rw [hnext, Construct.source, ← List.append_assoc]
  · rw [← List.append_assoc, hsource, List.append_nil, List.nil_append]

end Places

/-! ## Texts around marks -/

/-- What is taken along at the end of a line is blank. -/
theorem isBlank_of_mem_throughLineFeed {t : Text} (h : startsWithLineEnd t = true) :
    ∀ c ∈ throughLineFeed t, isBlank c = true := by
  intro c hc
  rcases mem_throughLineFeed hc with rfl | hc
  · decide
  · by_cases hreturn : c = '\r'
    · rw [hreturn]
      decide
    · have hmem := mem_dropSuffix hc (by simpa using hreturn : c ∉ ['\r'])
      exact isBlank_of_isHorizontal (List.all_eq_true.mp h c hmem)

/-- What is taken along behind a mark is blank. -/
theorem isBlank_of_mem_takenBehind {front rest : List Item} {tail : Text} :
    ∀ c ∈ takenBehind front rest tail, isBlank c = true := by
  rw [takenBehind]
  split
  · rename_i htaken
    obtain ⟨-, hends⟩ := Bool.and_eq_true_iff.mp htaken
    cases rest with
    | nil => exact isBlank_of_mem_throughLineFeed hends
    | cons i rest =>
      rw [lineTrail]
      split
      · rename_i hgap
        rw [reachesLineEnd, if_pos hgap] at hends
        exact isBlank_of_mem_throughLineFeed hends
      · simp
  · simp

/-- A blank text in front of a brace ends in front of it. -/
private theorem exists_append_of_blank {taken before raw behind : Text}
    (hstart : taken <+: before ++ raw ++ behind) (hblank : ∀ c ∈ taken, isBlank c = true)
    (hraw : raw.head? = some '{') : ∃ rest, before = taken ++ rest := by
  rw [List.append_assoc] at hstart
  rcases List.prefix_or_prefix_of_prefix hstart (List.prefix_append before _) with h | ⟨more, rfl⟩
  · obtain ⟨rest, hrest⟩ := h
    exact ⟨rest, hrest.symm⟩
  · cases more with
    | nil => exact ⟨[], by simp⟩
    | cons c more =>
      obtain ⟨raw, rfl⟩ := List.head?_eq_some_iff.mp hraw
      have hmore := (List.prefix_append_right_inj before).mp hstart
      obtain ⟨rfl, -⟩ := List.cons_prefix_cons.mp hmore
      exact absurd (hblank '{' (by simp)) (by decide)

/-- A part of the text in front of an isolated mark that ends with a brace is not on the line of the
mark. -/
private theorem beforeLastLine_eq {before raw behind : Text} (hraw : raw.getLast? = some '}')
    (h : isHorizontalOnly (lastLine (before ++ raw ++ behind)) = true) (rest : Text) :
    beforeLastLine (rest ++ raw ++ behind) = rest ++ raw ++ beforeLastLine behind := by
  have hline : '\n' ∈ behind := by
    by_contra hline
    obtain ⟨t, rfl⟩ := List.getLast?_eq_some_iff.mp hraw
    have hbrace : '}' ∈ lastLine (before ++ (t ++ ['}']) ++ behind) := by
      rw [lastLine_append_of_not_mem hline, ← List.append_assoc,
        lastLine_append_of_not_mem (by decide)]
      simp
    rw [isHorizontalOnly_eq_false (by decide) hbrace] at h
    cases h
  exact beforeLastLine_append_of_eq (lastLine_append_of_mem hline _)

private theorem exists_placed_text (front taken : Text) {rest raw more t : Text} (hraw : raw ≠ [])
    (ht : t = rest ++ raw ++ more) :
    ∃ p ∈ (textToken t).map (Token.placedAt (utf8Size (front ++ taken))), ∃ t, p.token = .text t ∧
      p.span.first ≤ utf8Size (front ++ (taken ++ rest)) ∧
      utf8Size (front ++ (taken ++ rest) ++ raw) ≤ p.span.last := by
  have hne : t ≠ [] := by simp [ht, hraw]
  refine ⟨(Token.text t).placedAt (utf8Size (front ++ taken)), ?_, t, rfl, ?_, ?_⟩
  · rw [textToken, if_neg hne]
    exact List.mem_singleton.mpr rfl
  · simp only [Token.placedAt, utf8Size_append]
    omega
  · simp only [Token.placedAt, Token.source, ht, utf8Size_append]
    omega

/-- A part of the text in front of a mark, or of the tail, that stands between braces is left to the
text token. -/
theorem exists_text_of_nextText (front : List Item) {back : List Item}
    {tail before raw behind : Text}
    (hnext : nextText back tail = before ++ raw ++ behind) (hhead : raw.head? = some '{')
    (hlast : raw.getLast? = some '}') :
    ∃ p ∈ (sitesBehind [] (front ++ back)).flatMap
          (fun x => x.placedText tail ++ [x.placed tail]) ++
        placedTail (front ++ back) tail, ∃ t, p.token = .text t ∧
      p.span.first ≤ utf8Size (front.flatMap Item.source ++ before) ∧
      utf8Size (front.flatMap Item.source ++ before ++ raw) ≤ p.span.last := by
  have hraw : raw ≠ [] := by
    rintro rfl
    cases hhead
  have hstart := isPrefix_takenBehind front back tail
  rw [hnext] at hstart
  obtain ⟨rest, rfl⟩ := exists_append_of_blank hstart isBlank_of_mem_takenBehind hhead
  have hdrop : (nextText back tail).drop (takenBehind front back tail).length =
      rest ++ raw ++ behind := by
    rw [hnext, List.append_assoc, List.append_assoc, List.drop_left, List.append_assoc]
  cases back with
  | nil =>
    obtain ⟨p, hp, hplace⟩ := exists_placed_text (front.flatMap Item.source)
      (takenBehind front [] tail) hraw hdrop
    refine ⟨p, List.mem_append_right _ ?_, hplace⟩
    rw [List.append_nil, placedTail]
    exact hp
  | cons i back =>
    obtain ⟨more, htext⟩ : ∃ more, Site.text tail ⟨front, i, back⟩ = rest ++ raw ++ more := by
      rw [Site.text]
      dsimp only
      split
      · rename_i hisolated
        have hlead := Site.isHorizontalOnly_lastLine _ tail hisolated
        rw [nextText] at hnext hdrop
        dsimp only at hlead
        rw [hnext] at hlead
        exact ⟨beforeLastLine behind, by rw [hdrop, beforeLastLine_eq hlast hlead]⟩
      · exact ⟨behind, hdrop⟩
    obtain ⟨p, hp, hplace⟩ := exists_placed_text (front.flatMap Item.source)
      (takenBehind front (i :: back) tail) hraw htext
    refine ⟨p, List.mem_append_left _ ?_, hplace⟩
    refine List.mem_flatMap.mpr ⟨⟨front, i, back⟩, ?_, List.mem_append_left _ hp⟩
    exact mem_sitesBehind_iff.mpr ⟨front, rfl, rfl⟩

/-! ## Tokens of constructs -/

/-- Every construct of a cut is examined behind the constructs in front of it. -/
theorem exists_of_mem_examinedFrom {passed : Text} {cs : List Construct} {e : Examined}
    (h : e ∈ examinedFrom passed cs) :
    ∃ pre c post, cs = pre ++ c :: post ∧
      e = c.examined (passed ++ pre.flatMap Construct.source) := by
  induction cs generalizing passed with
  | nil => cases h
  | cons c cs ih =>
    rcases List.mem_cons.mp h with rfl | h
    · exact ⟨[], c, cs, rfl, by simp [Construct.examined]⟩
    · obtain ⟨pre, c', post, rfl, rfl⟩ := ih h
      exact ⟨c :: pre, c', post, rfl, by simp⟩

/-- What stands in front of the gap of a construct ends with a brace. -/
theorem getLast?_flatMap_source (pre : List Construct) :
    pre.flatMap Construct.source = [] ∨
      (pre.flatMap Construct.source).getLast? = some '}' := by
  rcases List.eq_nil_or_concat pre with rfl | ⟨pre, c, rfl⟩
  · exact Or.inl rfl
  · right
    simp [Construct.source, List.getLast?_append, c.getLast?_raw]

section Yields

variable {s : Settings} {cut : Cut} {pre post : List Construct} {c : Construct}
  (h : cut.constructs = pre ++ c :: post)

private theorem mem_placeTokens_of_site {front back : List Item} {i : Item}
    (hitems : (cut.items s).1 = front ++ i :: back) :
    Site.placed (cut.items s).2 ⟨front, i, back⟩ ∈ placeTokens 0 (cut.tokens s) := by
  rw [placeTokens_tokens]
  refine List.mem_append_left _ (List.mem_flatMap.mpr ⟨⟨front, i, back⟩, ?_, ?_⟩)
  · exact mem_sitesBehind_iff.mpr ⟨front, rfl, hitems⟩
  · exact List.mem_append_right _ (List.mem_singleton.mpr rfl)

include h

/-- A construct that is read as a tag is the tag of a token. -/
theorem yieldsTag_of_reading {kind : TagKind} {content : Text}
    (hread : c.reading s = .tag kind content) :
    (c.examined (pre.flatMap Construct.source)).YieldsTag (placeTokens 0 (cut.tokens s)) := by
  obtain ⟨front, i, back, hitems, hmark, hbefore⟩ := exists_item_of_tag h hread
  refine ⟨_, mem_placeTokens_of_site hitems, ?_⟩
  have htoken : ∃ t, Site.token (cut.items s).2 ⟨front, i, back⟩ = .tag t := by
    rw [Site.token, hmark]
    exact ⟨_, rfl⟩
  obtain ⟨t, ht⟩ := htoken
  refine ⟨t, ht, ?_⟩
  rw [Site.span_placed, Site.before, hbefore, hmark]
  rfl

/-- A construct that is read as escaped is the literal of a token. -/
theorem yieldsEscaped_of_reading (hread : c.reading s = .escaped) :
    (c.examined (pre.flatMap Construct.source)).YieldsEscaped (placeTokens 0 (cut.tokens s)) := by
  obtain ⟨front, i, back, hitems, hmark, hsource⟩ := exists_item_of_escaped h hread
  have hmarked : i.mark.source = notVar ++ c.raw := by rw [hmark, Mark.source]
  have hthrough : front.flatMap Item.source ++ i.gap ++ i.mark.source =
      pre.flatMap Construct.source ++ c.gap ++ c.raw := by
    rw [List.append_assoc, List.append_assoc]
    exact hsource
  refine ⟨_, mem_placeTokens_of_site hitems, ?_, ?_, ?_⟩
  · rw [Site.placed, Site.token, hmark]
    rfl
  · have hword : front.flatMap Item.source ++ i.gap ++ notVar =
        pre.flatMap Construct.source ++ c.gap := by
      rw [hmarked, ← List.append_assoc] at hthrough
      exact List.append_cancel_right hthrough
    rw [Site.span_placed, Site.before, ← utf8Size_append, hword]
    rfl
  · rw [Site.span_placed, Site.before, hthrough]
    rfl

/-- A construct that is read as text is a part of a text token. -/
theorem yieldsText_of_reading (hread : c.reading s = .plain) :
    (c.examined (pre.flatMap Construct.source)).YieldsText (placeTokens 0 (cut.tokens s)) := by
  obtain ⟨front, back, before, behind, hitems, hnext, hbefore⟩ := exists_nextText_of_plain h hread
  obtain ⟨p, hp, hplace⟩ := exists_text_of_nextText front hnext rfl c.getLast?_raw
  rw [← hitems, ← placeTokens_tokens, hbefore] at *
  exact ⟨p, hp, hplace⟩

end Yields

/-! ## Every construct becomes one thing -/

/-- The bytes of a range are consumed with a token. -/
def PlacedToken.Consumes (p : PlacedToken) (range : Span) : Prop :=
  p.consumed.first ≤ range.first ∧ range.last ≤ p.consumed.last

/-- A range of a source is consumed with at most one token. -/
theorem PlacedToken.Consumes.eq {placed : List PlacedToken} {range : Span}
    (hplaced : placed.Pairwise fun p q => p.consumed.last ≤ q.consumed.first)
    (hrange : range.first < range.last) {p q : PlacedToken} (hp : p ∈ placed) (hq : q ∈ placed)
    (h : p.Consumes range) (h' : q.Consumes range) : p = q := by
  obtain ⟨hfirst, hlast⟩ := h
  obtain ⟨hfirst', hlast'⟩ := h'
  obtain ⟨front, back, rfl⟩ := List.append_of_mem hp
  obtain ⟨-, hbehind, hbetween⟩ := List.pairwise_append.mp hplaced
  rcases List.mem_append.mp hq with hq | hq
  · have hbefore := hbetween q hq p List.mem_cons_self
    omega
  · rcases List.mem_cons.mp hq with rfl | hq
    · rfl
    · have hafter := (List.pairwise_cons.mp hbehind).1 q hq
      omega

namespace Examined

variable {c : Examined} {tokens : List Token}

/-- A construct is not empty. -/
theorem range_first_lt (c : Examined) : c.range.first < c.range.last := by
  have hraw : 0 < utf8Size c.raw := utf8Size_pos_of_mem (List.mem_of_head? (rfl : _ = some '{'))
  rw [range, utf8Size_append]
  exact Nat.lt_add_of_pos_right hraw

private theorem consumes_of_span {p : PlacedToken} (hp : p ∈ placeTokens 0 tokens)
    (hfirst : p.span.first ≤ c.range.first) (hlast : c.range.last ≤ p.span.last) :
    p.Consumes c.range := by
  obtain ⟨pre, token, post, -, rfl⟩ := exists_of_mem_placeTokens hp
  obtain ⟨hstart, -, hstop⟩ := span_placedAt (0 + utf8Size (pre.flatMap Token.source)) token
  exact ⟨hstart.trans hfirst, hlast.trans hstop⟩

/-- A construct that is a tag is consumed with this tag. -/
theorem YieldsTag.exists_consumes (h : c.YieldsTag (placeTokens 0 tokens)) :
    ∃ p ∈ placeTokens 0 tokens, p.Consumes c.range ∧ ∃ t, p.token = .tag t := by
  obtain ⟨p, hp, t, htoken, hspan⟩ := h
  exact ⟨p, hp, consumes_of_span hp (by rw [hspan]) (by rw [hspan]), t, htoken⟩

/-- A construct that is escaped is consumed with the word in front of it. -/
theorem YieldsEscaped.exists_consumes (h : c.YieldsEscaped (placeTokens 0 tokens)) :
    ∃ p ∈ placeTokens 0 tokens, p.Consumes c.range ∧ p.token = .escaped c.raw := by
  obtain ⟨p, hp, htoken, hfirst, hlast⟩ := h
  exact ⟨p, hp, consumes_of_span hp (by omega) hlast.ge, htoken⟩

/-- A construct that is a part of a text is consumed with this text. -/
theorem YieldsText.exists_consumes (h : c.YieldsText (placeTokens 0 tokens)) :
    ∃ p ∈ placeTokens 0 tokens, p.Consumes c.range ∧ ∃ t, p.token = .text t := by
  obtain ⟨p, hp, t, htoken, hfirst, hlast⟩ := h
  exact ⟨p, hp, consumes_of_span hp hfirst hlast, t, htoken⟩

private theorem token_eq {p q : PlacedToken} (hp : p ∈ placeTokens 0 tokens)
    (hq : q ∈ placeTokens 0 tokens) (h : p.Consumes c.range) (h' : q.Consumes c.range) :
    p.token = q.token :=
  congrArg _ (PlacedToken.Consumes.eq (pairwise_placeTokens 0 tokens) c.range_first_lt hp hq h h')

/-- No construct is both a tag and escaped. -/
theorem YieldsTag.not_yieldsEscaped (h : c.YieldsTag (placeTokens 0 tokens)) :
    ¬ c.YieldsEscaped (placeTokens 0 tokens) := by
  intro h'
  obtain ⟨p, hp, hconsumes, t, htag⟩ := h.exists_consumes
  obtain ⟨q, hq, hconsumes', hescaped⟩ := h'.exists_consumes
  have hsame := token_eq hp hq hconsumes hconsumes'
  rw [htag, hescaped] at hsame
  cases hsame

/-- No construct is both a tag and a part of a text. -/
theorem YieldsTag.not_yieldsText (h : c.YieldsTag (placeTokens 0 tokens)) :
    ¬ c.YieldsText (placeTokens 0 tokens) := by
  intro h'
  obtain ⟨p, hp, hconsumes, t, htag⟩ := h.exists_consumes
  obtain ⟨q, hq, hconsumes', t', htext⟩ := h'.exists_consumes
  have hsame := token_eq hp hq hconsumes hconsumes'
  rw [htag, htext] at hsame
  cases hsame

/-- No construct is both escaped and a part of a text. -/
theorem YieldsEscaped.not_yieldsText (h : c.YieldsEscaped (placeTokens 0 tokens)) :
    ¬ c.YieldsText (placeTokens 0 tokens) := by
  intro h'
  obtain ⟨p, hp, hconsumes, hescaped⟩ := h.exists_consumes
  obtain ⟨q, hq, hconsumes', t', htext⟩ := h'.exists_consumes
  have hsame := token_eq hp hq hconsumes hconsumes'
  rw [hescaped, htext] at hsame
  cases hsame

end Examined

/-- What a construct becomes is what it is read as. -/
structure Construct.Becomes (s : Settings) (c : Construct) (placed : List PlacedToken)
    (e : Examined) : Prop where
  /-- It becomes a tag if it is read as one. -/
  tag : e.YieldsTag placed ↔ ∃ kind content, c.reading s = .tag kind content
  /-- It becomes escaped if it is read as escaped. -/
  escaped : e.YieldsEscaped placed ↔ c.reading s = .escaped
  /-- It becomes a part of a text if it is read as text. -/
  text : e.YieldsText placed ↔ c.reading s = .plain

/-- Every construct of a cut becomes what it is read as. -/
theorem becomes_of_cut {s : Settings} {cut : Cut} {pre post : List Construct} {c : Construct}
    (h : cut.constructs = pre ++ c :: post) :
    c.Becomes s (placeTokens 0 (cut.tokens s)) (c.examined (pre.flatMap Construct.source)) := by
  cases hread : c.reading s with
  | tag kind content =>
    have hyields := yieldsTag_of_reading h hread
    exact ⟨by simp [hyields, hread], by simp [hyields.not_yieldsEscaped, hread],
      by simp [hyields.not_yieldsText, hread]⟩
  | escaped =>
    have hyields := yieldsEscaped_of_reading h hread
    exact ⟨by simpa [hread] using fun htag => htag.not_yieldsEscaped hyields,
      by simp [hyields, hread], by simp [hyields.not_yieldsText, hread]⟩
  | plain =>
    have hyields := yieldsText_of_reading h hread
    exact ⟨by simpa [hread] using fun htag => htag.not_yieldsText hyields,
      by simpa [hread] using fun hescaped => hescaped.not_yieldsText hyields,
      by simp [hyields, hread]⟩

/-! ## No opener is missed -/

/-- Every opener of a source is told by the constructs that are examined, and each of these becomes
one thing. -/
structure MissesNoOpener (s : Settings) (source : Text) (placed : List PlacedToken)
    (cs : List Examined) : Prop where
  /-- Every opener is passed over in fenced code or lies in one of the constructs, perhaps at its
  start. -/
  opener : ∀ before d, before ++ Delimiter.opener d <+: source → s.PassesOver source before ∨
    ∃ c ∈ cs, c.range.first ≤ utf8Size before ∧ utf8Size (before ++ d.opener) ≤ c.range.last
  /-- The constructs are disjoint. -/
  disjoint : cs.Pairwise fun c c' => c.range.last ≤ c'.range.first
  /-- A construct becomes a tag exactly if it is an interpolation without the escaping word in front
  of it or a statement with a keyword, its kind being switched on. -/
  tag : ∀ c ∈ cs, c.YieldsTag placed ↔ c.IsTag s
  /-- A construct is escaped exactly if it is an interpolation that is switched on, with the
  escaping word in front of it, and the word is not kept. -/
  escaped : ∀ c ∈ cs, c.YieldsEscaped placed ↔ c.IsEscaped s
  /-- Any other construct is a part of a text. -/
  text : ∀ c ∈ cs, c.YieldsText placed ↔ ¬ c.IsTag s ∧ ¬ c.IsEscaped s

/-- Scanning misses no opener of any source. -/
theorem missesNoOpener_of_scan (s : Settings) (source : Text) (tokens : List Token)
    (h : scan s source = .ok tokens) :
    (∃ cs, Examines s source [] cs) ∧
      ∀ cs, Examines s source [] cs → MissesNoOpener s source (placeTokens 0 tokens) cs := by
  obtain ⟨cut, hcut, rfl⟩ := scan_eq_ok_iff.mp h
  have hexamines : Examines s source [] (examinedFrom [] cut.constructs) :=
    examines_of_ofFlagged rfl rfl hcut
  refine ⟨⟨_, hexamines⟩, fun cs hcs => ?_⟩
  obtain rfl := hcs.unique hexamines
  have hbecomes : ∀ e ∈ examinedFrom [] cut.constructs, ∃ pre c post,
      cut.constructs = pre ++ c :: post ∧ e = c.examined (pre.flatMap Construct.source) ∧
        c.Becomes s (placeTokens 0 (cut.tokens s)) e := by
    intro e he
    obtain ⟨pre, c, post, hconstructs, rfl⟩ := exists_of_mem_examinedFrom he
    exact ⟨pre, c, post, hconstructs, rfl, becomes_of_cut hconstructs⟩
  refine ⟨fun before d => hexamines.exists_mem_of_opener List.nil_prefix,
    hexamines.pairwise_range, ?_, ?_, ?_⟩
  · intro e he
    obtain ⟨pre, c, post, -, rfl, hc⟩ := hbecomes e he
    rw [hc.tag, Construct.isTag_examined_iff (getLast?_flatMap_source pre)]
  · intro e he
    obtain ⟨pre, c, post, -, rfl, hc⟩ := hbecomes e he
    rw [hc.escaped, Construct.isEscaped_examined_iff (getLast?_flatMap_source pre)]
  · intro e he
    obtain ⟨pre, c, post, -, rfl, hc⟩ := hbecomes e he
    rw [hc.text, Construct.isTag_examined_iff (getLast?_flatMap_source pre),
      Construct.isEscaped_examined_iff (getLast?_flatMap_source pre)]
    cases c.reading s <;> simp

/-- Openers in fenced code, in front of each other and inside a construct, beside an escaped
interpolation and a statement without a keyword. -/
def crowdedLine : Text :=
  "```\n\x7b\x7b a\n```\n".toList ++ "\x7b\x7b\x7b b \x7d\x7dnot_var{{ c }}".toList ++
    "\x7b% \x7b\x7b note %\x7d{%-if d%}".toList

/-- The tokens of this source. -/
def crowdedLineTokens : List Token :=
  [.text "```\n\x7b\x7b a\n```\n".toList,
    .tag ⟨.interpolation, "\x7b b".toList, [], "\x7b\x7b\x7b b \x7d\x7d".toList, [], false, false⟩,
    .escaped "{{ c }}".toList,
    .text "\x7b% \x7b\x7b note %\x7d".toList,
    .tag ⟨.statement .condition, "if d".toList, [], "{%-if d%}".toList, [], false, false⟩]

/-- No opener of this source is missed. -/
theorem missesNoOpener_of_scan_crowdedLine :
    scan {} crowdedLine = .ok crowdedLineTokens ∧ (∃ cs, Examines {} crowdedLine [] cs) ∧
      ∀ cs, Examines {} crowdedLine [] cs →
        MissesNoOpener {} crowdedLine (placeTokens 0 crowdedLineTokens) cs :=
  have h : scan {} crowdedLine = .ok crowdedLineTokens := by decide +kernel
  ⟨h, missesNoOpener_of_scan {} crowdedLine crowdedLineTokens h⟩

end DocTemplate
