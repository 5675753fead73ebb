import DocTemplate.Proofs.Token.Cover

/-!
# Keeping the word that escapes an interpolation

While the escaping word is kept, an escaped interpolation is text and joins the text around it.
Nothing else changes: an escaped interpolation is visible on its line whether it is a mark or text,
so the tags beside it take along what they take along without it.
-/

namespace DocTemplate

open Text

/-! ## Reading -/

/-- Keeping the escaping word turns escaped constructs into plain ones. -/
theorem Construct.reading_keepNotVar (s : Settings) (c : Construct) :
    c.reading { s with keepNotVar := true } =
      match c.reading { s with keepNotVar := false } with
      | .escaped => .plain
      | reading => reading := by
  unfold reading
  have henables (kind : TagKind) :
      ({ s with keepNotVar := true } : Settings).enables kind =
        ({ s with keepNotVar := false } : Settings).enables kind := by
    cases kind with
    | statement k => cases k <;> rfl
    | interpolation => rfl
  cases c.delimiter with
  | statement =>
    simp only [henables]
    split <;> (try split) <;> rfl
  | interpolation =>
    simp only [henables]
    split <;> (try split) <;> rfl

/-- Marks of which the escaped ones are taken for text, with `pending` as the text in front. -/
def Item.joinEscapes (pending : Text) : List Item → Text → List Item × Text
  | [], tail => ([], pending ++ tail)
  | i :: rest, tail =>
    match i.mark with
    | .escaped _ => joinEscapes (pending ++ i.source) rest tail
    | .tag .. =>
      let (items, tail) := joinEscapes [] rest tail
      ({ i with gap := pending ++ i.gap } :: items, tail)

/-- Keeping the escaping word takes escaped marks for text. -/
theorem collectItems_keepNotVar (s : Settings) (front pending : Text) (cs : List Construct)
    (tail : Text) :
    collectItems { s with keepNotVar := true } (front ++ pending) cs tail =
      Item.joinEscapes front (collectItems { s with keepNotVar := false } pending cs tail).1
        (collectItems { s with keepNotVar := false } pending cs tail).2 := by
  induction cs generalizing front pending with
  | nil => exact congrArg (Prod.mk []) (List.append_assoc ..)
  | cons c cs ih =>
    rw [collectItems, collectItems, Construct.reading_keepNotVar]
    cases hreading : c.reading { s with keepNotVar := false } with
    | plain =>
      have hrest := ih front (pending ++ c.source)
      rwa [← List.append_assoc] at hrest
    | tag kind content =>
      have hrest := ih [] []
      rw [List.nil_append] at hrest
      simp [Item.joinEscapes, hrest]
    | escaped =>
      have hsource := source_of_reading_eq_escaped hreading pending
      have hrest := ih (front ++ (pending ++ c.source)) []
      rw [List.append_nil, ← List.append_assoc] at hrest
      simpa [Item.joinEscapes, hsource] using hrest

/-- The text in front stays in front of the first mark. -/
theorem exists_nextText_joinEscapes (pending : Text) (items : List Item) (tail : Text) :
    ∃ more, nextText (Item.joinEscapes pending items tail).1
      (Item.joinEscapes pending items tail).2 = pending ++ more := by
  induction items generalizing pending with
  | nil => exact ⟨tail, rfl⟩
  | cons i items ih =>
    obtain ⟨gap, mark⟩ := i
    cases mark with
    | tag kind content raw fenced => exact ⟨gap, rfl⟩
    | escaped literal =>
      obtain ⟨more, hmore⟩ := ih (pending ++ Item.source ⟨gap, .escaped literal⟩)
      exact ⟨_, hmore.trans (List.append_assoc ..)⟩

/-- What stands in front of an escaped mark stands in front of its word. -/
theorem exists_nextText_escaped (gap literal : Text) (rest : List Item) (tail : Text) :
    ∃ more, nextText (Item.joinEscapes [] (⟨gap, .escaped literal⟩ :: rest) tail).1
      (Item.joinEscapes [] (⟨gap, .escaped literal⟩ :: rest) tail).2 = gap ++ (notVar ++ more) := by
  obtain ⟨more, hmore⟩ :=
    exists_nextText_joinEscapes (Item.source ⟨gap, .escaped literal⟩) rest tail
  refine ⟨literal ++ more, hmore.trans ?_⟩
  rw [Item.source, Mark.source, List.append_assoc, List.append_assoc]

/-! ## Lines beside an escaped interpolation -/

/-- A line that holds the escaping word does not end in front of it. -/
theorem startsWithLineEnd_notVar {gap : Text} (hgap : '\n' ∉ gap) (more : Text) :
    startsWithLineEnd (gap ++ (notVar ++ more)) = false :=
  startsWithLineEnd_append_cons hgap (c := 'n') (by decide) _

/-- In front of the escaping word a line ends only at a line feed. -/
theorem reachesLineEnd_notVar {items : List Item} {tail gap more : Text}
    (h : nextText items tail = gap ++ (notVar ++ more)) :
    reachesLineEnd items tail = (gap.contains '\n' && startsWithLineEnd gap) := by
  by_cases hgap : '\n' ∈ gap
  · have hmem : '\n' ∈ nextText items tail := h ▸ List.mem_append_left _ hgap
    rw [reachesLineEnd_of_mem hmem, h, startsWithLineEnd_append hgap,
      List.contains_iff_mem.mpr hgap, Bool.true_and]
  · have hvisible := startsWithLineEnd_notVar hgap more
    have hword : 'n' ∈ gap ++ (notVar ++ more) := List.mem_append_right _ List.mem_cons_self
    have hcontains : gap.contains '\n' = false := by simpa using hgap
    rw [hcontains, Bool.false_and]
    by_cases hmem : '\n' ∈ nextText items tail
    · rw [reachesLineEnd_of_mem hmem, h, hvisible]
    · cases items with
      | nil => exact (congrArg startsWithLineEnd h).trans hvisible
      | cons i rest =>
        rw [nextText] at h hmem
        rw [← h] at hword
        rw [reachesLineEnd, if_neg (by simpa using hmem),
          isHorizontalOnly_eq_false (by decide) hword, Bool.false_and, Bool.false_and]

/-- A line ends behind a tag whether escaped interpolations are marks or text. -/
theorem reachesLineEnd_joinEscapes (items : List Item) (tail : Text) :
    reachesLineEnd (Item.joinEscapes [] items tail).1 (Item.joinEscapes [] items tail).2 =
      reachesLineEnd items tail := by
  induction items with
  | nil => rfl
  | cons i rest ih =>
    obtain ⟨gap, mark⟩ := i
    cases mark with
    | tag kind content raw fenced =>
      rw [reachesLineEnd, ← ih]
      rfl
    | escaped literal =>
      obtain ⟨more, hnext⟩ := exists_nextText_escaped gap literal rest tail
      rw [reachesLineEnd_notVar hnext, reachesLineEnd]
      cases gap.contains '\n' <;> simp [Mark.isStatement]

/-- A tag takes along the end of its line whether escaped interpolations are marks or text. -/
theorem lineTrail_joinEscapes {items : List Item} {tail : Text}
    (h : reachesLineEnd items tail = true) :
    lineTrail (Item.joinEscapes [] items tail).1 (Item.joinEscapes [] items tail).2 =
      lineTrail items tail := by
  cases items with
  | nil => rfl
  | cons i rest =>
    obtain ⟨gap, mark⟩ := i
    cases mark with
    | tag kind content raw fenced => rfl
    | escaped literal =>
      obtain ⟨more, hnext⟩ := exists_nextText_escaped gap literal rest tail
      have hgap : '\n' ∈ gap := by
        by_contra hgap
        simp [reachesLineEnd, hgap, Mark.isStatement] at h
      rw [lineTrail_of_mem (hnext ▸ List.mem_append_left _ hgap), hnext,
        throughLineFeed_append_of_mem hgap, lineTrail, if_pos (List.contains_iff_mem.mpr hgap)]

/-- A line that starts in front of an escaped interpolation is not free of other things. -/
theorem endsWithLineStart_append_brace {front : Text} (hfront : front.getLast? = some '}')
    (clear : Bool) (gap : Text) :
    endsWithLineStart clear (front ++ gap) = endsWithLineStart false gap := by
  by_cases hgap : '\n' ∈ gap
  · have hcontains : (front ++ gap).contains '\n' = true :=
      List.contains_iff_mem.mpr (List.mem_append_right front hgap)
    rw [endsWithLineStart, endsWithLineStart, lastLine_append_of_mem hgap, hcontains,
      List.contains_iff_mem.mpr hgap, Bool.or_true, Bool.or_true]
  · obtain ⟨rest, rfl⟩ := List.getLast?_eq_some_iff.mp hfront
    have hbrace : '}' ∈ lastLine (rest ++ ['}'] ++ gap) := by
      rw [lastLine_append_of_not_mem hgap, lastLine_append_of_not_mem (by decide)]
      simp
    rw [endsWithLineStart, endsWithLineStart, isHorizontalOnly_eq_false (by decide) hbrace]
    simp [hgap]

private theorem isEmpty_eq_false {t : Text} {c : Char} (h : t.getLast? = some c) :
    t.isEmpty = false := by
  cases t with
  | nil => cases h
  | cons d t => rfl

/-- The text since the mark before, of which `taken` has been taken along: it is empty, or it ends
with an escaped interpolation and nothing behind it has been taken along. -/
def JoinedFront (front : Text) (taken : Nat) : Prop :=
  front = [] ∨ front.getLast? = some '}' ∧ taken ≤ front.length

/-- A line is not free of other things if an escaped interpolation ends on it. -/
theorem JoinedFront.endsWithLineStart_append {front : Text} {taken : Nat}
    (hfront : JoinedFront front taken) (clear : Bool) (gap : Text) :
    endsWithLineStart clear (front ++ gap) =
      endsWithLineStart (clear && front.isEmpty) gap := by
  rcases hfront with rfl | ⟨hlast, -⟩
  · rw [List.nil_append, List.isEmpty_nil, Bool.and_true]
  · rw [endsWithLineStart_append_brace hlast, isEmpty_eq_false hlast, Bool.and_false]

/-- In front of a tag that starts its line nothing of an escaped interpolation is on that line. -/
theorem JoinedFront.lastLine_append {front : Text} {clear : Bool} {taken : Nat} {gap : Text}
    (hfront : JoinedFront front taken)
    (h : endsWithLineStart (clear && front.isEmpty) gap = true) :
    lastLine (front.drop taken ++ gap.drop (taken - front.length)) =
      lastLine (gap.drop (taken - front.length)) := by
  rcases hfront with rfl | ⟨hlast, hlength⟩
  · rw [List.drop_nil, List.nil_append]
  · have hgap : '\n' ∈ gap := by
      have hempty : front.isEmpty = false := isEmpty_eq_false hlast
      simp only [endsWithLineStart, hempty, Bool.and_false, Bool.false_or,
        Bool.and_eq_true] at h
      exact List.contains_iff_mem.mp h.2
    rw [Nat.sub_eq_zero_of_le hlength, List.drop_zero, lastLine_append_of_mem hgap]

/-! ## Weaving -/

/-- The tokens of a source of which the escaped ones are taken for text, with `pending` as the text
in front. -/
def Token.joinEscapes (pending : Text) : List Token → List Token
  | [] => textToken pending
  | .tag t :: rest => textToken pending ++ .tag t :: joinEscapes [] rest
  | token :: rest => joinEscapes (pending ++ token.source) rest

/-- Text joins the text in front of it. -/
theorem joinEscapes_textToken (pending t : Text) (tokens : List Token) :
    Token.joinEscapes pending (textToken t ++ tokens) =
      Token.joinEscapes (pending ++ t) tokens := by
  by_cases ht : t = []
  · simp [textToken, ht]
  · simp [textToken, ht, Token.joinEscapes, Token.source]

/-- Marks of which the escaped ones are taken for text are woven into the same tags, and between
these stands the same text. -/
theorem weave_joinEscapes {front : Text} (clear : Bool) {taken : Nat} {items : List Item}
    (tail : Text) (hitems : ∀ i ∈ items, i.mark.source.getLast? = some '}')
    (hfront : JoinedFront front taken)
    (htaken : taken ≤ (front ++ nextText items tail).length) :
    weave clear taken (Item.joinEscapes front items tail).1 (Item.joinEscapes front items tail).2 =
      Token.joinEscapes (front.drop taken)
        (weave (clear && front.isEmpty) (taken - front.length) items tail) := by
  -- Escaped marks gather in `front`, together with what has been taken along in front of them.
  induction items generalizing front clear taken with
  | nil =>
    rw [weave, ← List.append_nil (textToken _), joinEscapes_textToken, ← List.drop_append]
    rfl
  | cons i rest ih =>
    obtain ⟨whole, mark⟩ := i
    have hrest : ∀ i ∈ rest, i.mark.source.getLast? = some '}' :=
      fun i hi => hitems i (List.mem_cons_of_mem _ hi)
    have hbrace := hitems _ List.mem_cons_self
    have hdrop : (front ++ whole).drop taken =
        front.drop taken ++ whole.drop (taken - front.length) := List.drop_append
    rw [nextText] at htaken
    cases mark with
    | escaped literal =>
      have hend : (front ++ Item.source ⟨whole, .escaped literal⟩).getLast? = some '}' := by
        simp [Item.source, List.getLast?_append, hbrace]
      have hlength : taken ≤ (front ++ Item.source ⟨whole, .escaped literal⟩).length := by
        rw [Item.source, ← List.append_assoc]
        exact htaken.trans (List.prefix_append ..).length_le
      have hnext := ih clear hrest (Or.inr ⟨hend, hlength⟩)
        (hlength.trans (List.prefix_append ..).length_le)
      have hsource : (front ++ Item.source ⟨whole, .escaped literal⟩).drop taken =
          (front ++ whole).drop taken ++ (notVar ++ literal) := by
        rw [Item.source, ← List.append_assoc, List.drop_append_of_le_length htaken]
        rfl
      rw [isEmpty_eq_false hend, Bool.and_false, Nat.sub_eq_zero_of_le hlength, hsource] at hnext
      rw [weave, joinEscapes_textToken, ← hdrop]
      exact hnext
    | tag kind content raw fenced =>
      have hnext (clear : Bool) {taken : Nat} (htaken : taken ≤ (nextText rest tail).length) :
          weave clear taken (Item.joinEscapes [] rest tail).1 (Item.joinEscapes [] rest tail).2 =
            Token.joinEscapes [] (weave clear taken rest tail) := by
        simpa using ih clear hrest (Or.inl rfl) htaken
      have hstart := hfront.endsWithLineStart_append clear whole
      rw [Item.joinEscapes]
      dsimp only
      rw [weave, weave, reachesLineEnd_joinEscapes, hstart, hdrop]
      dsimp only
      split
      · rename_i hisolated
        simp only [Bool.and_eq_true] at hisolated
        have hline := hfront.lastLine_append hisolated.1.2
        rw [lineTrail_joinEscapes hisolated.2, hline, beforeLastLine_append_of_eq hline,
          hnext _ (isPrefix_lineTrail rest tail).length_le, joinEscapes_textToken]
        rfl
      · rw [hnext _ (Nat.zero_le _), joinEscapes_textToken]
        rfl

/-! ## Scanning -/

/-- While the escaping word is kept, the escaped interpolations of a cut are text. -/
theorem tokens_keepNotVar (s : Settings) (cut : Cut) :
    cut.tokens { s with keepNotVar := true } =
      Token.joinEscapes [] (cut.tokens { s with keepNotVar := false }) := by
  have hitems := collectItems_keepNotVar s [] [] cut.constructs cut.tail
  have hbrace : ∀ i ∈ (cut.items { s with keepNotVar := false }).1,
      i.mark.source.getLast? = some '}' :=
    fun i hi => getLast?_source_of_mem_collectItems hi
  have hweave := weave_joinEscapes true (cut.items { s with keepNotVar := false }).2 hbrace
    (Or.inl rfl) (Nat.zero_le _)
  rw [List.nil_append] at hitems
  rw [Cut.tokens, Cut.tokens, hitems]
  exact hweave

/-- Whether a token is a tag. -/
def Token.isTag : Token → Bool
  | .tag _ => true
  | _ => false

/-- Tags stay where they are, with all that is dropped with them, when escaped interpolations are
taken for text. -/
theorem filter_isTag_placeTokens_joinEscapes (offset : Nat) (pending : Text)
    (tokens : List Token) :
    (placeTokens offset (Token.joinEscapes pending tokens)).filter (·.token.isTag) =
      (placeTokens (offset + utf8Size pending) tokens).filter (·.token.isTag) := by
  have htext (offset : Nat) (t : Text) (tokens : List Token) :
      (placeTokens offset (textToken t ++ tokens)).filter (·.token.isTag) =
        (placeTokens (offset + utf8Size t) tokens).filter (·.token.isTag) := by
    by_cases ht : t = []
    · simp [textToken, ht]
    · simp [textToken, ht, placeTokens_cons, Token.placedAt, Token.isTag, Token.source]
  induction tokens generalizing offset pending with
  | nil => simpa [Token.joinEscapes] using htext offset pending []
  | cons token tokens ih =>
    cases token with
    | tag t =>
      have hrest := ih (offset + utf8Size pending + utf8Size (Token.tag t).source) []
      rw [utf8Size_nil, Nat.add_zero] at hrest
      rw [Token.joinEscapes, htext, placeTokens_cons, placeTokens_cons,
        List.filter_cons_of_pos rfl, List.filter_cons_of_pos rfl, hrest]
    | text t =>
      have hrest := ih offset (pending ++ (Token.text t).source)
      rw [utf8Size_append, ← Nat.add_assoc] at hrest
      exact hrest
    | escaped literal =>
      have hrest := ih offset (pending ++ (Token.escaped literal).source)
      rw [utf8Size_append, ← Nat.add_assoc] at hrest
      exact hrest

end DocTemplate
