import DocTemplate.Proofs.Token.Cover

/-!
# Marks in their places

What a mark is woven into is told by the marks in front of it and behind it: whether a tag has a
line of its own, what it takes along on either side, and where its token and the text in front of
it are placed.
-/

namespace DocTemplate

open Text

/-- A mark among the marks of a source. -/
structure Site where
  /-- The marks in front of it. -/
  front : List Item
  /-- The mark with the text in front of it. -/
  item : Item
  /-- The marks behind it. -/
  back : List Item

/-- The sites of marks that stand behind others. -/
def sitesBehind (front : List Item) : List Item → List Site
  | [] => []
  | i :: rest => ⟨front, i, rest⟩ :: sitesBehind (front ++ [i]) rest

/-- Whether the line up to the last of some marks holds nothing but spaces, tabs and statements. -/
def clearAfter (front : List Item) : Bool :=
  front.foldl (fun clear i => i.mark.isStatement && endsWithLineStart clear i.gap) true

/-- What the last of the marks `front` takes along of the text behind it. -/
def takenBehind (front rest : List Item) (tail : Text) : Text :=
  if !front.isEmpty && clearAfter front && reachesLineEnd rest tail then lineTrail rest tail else []

namespace Site

variable (tail : Text) (x : Site)

/-- The source in front of the mark. -/
def before : Text := x.front.flatMap Item.source ++ x.item.gap

/-- The source behind the mark. -/
def behind : Text := x.back.flatMap Item.source ++ tail

/-- Whether nothing but spaces, tabs and statements stands in front of the mark on its line, the
mark being one of the statements. -/
def opensLine : Bool := clearAfter (x.front ++ [x.item])

/-- Whether the mark is a statement that shares its line with spaces, tabs and statements only. -/
def isolated : Bool := x.opensLine && reachesLineEnd x.back tail

/-- The token of the mark. -/
def token : Token :=
  match x.item.mark with
  | .tag kind content raw fenced =>
    let isolated := x.isolated tail
    .tag ⟨kind, content, if isolated then lastLine x.item.gap else [], raw,
      if isolated then lineTrail x.back tail else [], isolated, fenced⟩
  | .escaped literal => .escaped literal

/-- The token of the mark in its place. -/
def placed : PlacedToken :=
  (x.token tail).placedAt (utf8Size (x.front.flatMap Item.source ++
    if x.isolated tail then beforeLastLine x.item.gap else x.item.gap))

/-- What of the text in front of the mark is left to be a text token. -/
def text : Text :=
  let rest := x.item.gap.drop (takenBehind x.front (x.item :: x.back) tail).length
  if x.isolated tail then beforeLastLine rest else rest

/-- The token of the text in front of the mark in its place, unless there is no text. -/
def placedText : List PlacedToken :=
  (textToken (x.text tail)).map (Token.placedAt (utf8Size (x.front.flatMap Item.source ++
    takenBehind x.front (x.item :: x.back) tail)))

end Site

/-- The token of the text behind the last of some marks in its place, unless there is no text. -/
def placedTail (items : List Item) (tail : Text) : List PlacedToken :=
  let taken := takenBehind items [] tail
  (textToken (tail.drop taken.length)).map
    (Token.placedAt (utf8Size (items.flatMap Item.source ++ taken)))

/-! ## The order of sites -/

/-- Every site is one between marks in front of it and marks behind it. -/
theorem mem_sitesBehind_iff {front items : List Item} {x : Site} :
    x ∈ sitesBehind front items ↔
      ∃ pre, x.front = front ++ pre ∧ items = pre ++ x.item :: x.back := by
  constructor
  · intro h
    induction items generalizing front with
    | nil => cases h
    | cons i rest ih =>
      rcases List.mem_cons.mp h with rfl | h
      · exact ⟨[], (List.append_nil front).symm, rfl⟩
      · obtain ⟨pre, hfront, rfl⟩ := ih h
        exact ⟨i :: pre, by simp [hfront], rfl⟩
  · rintro ⟨pre, hfront, rfl⟩
    induction pre generalizing front with
    | nil =>
      rw [List.append_nil] at hfront
      subst hfront
      exact List.mem_cons_self
    | cons i pre ih => exact List.mem_cons_of_mem _ (ih (by simp [hfront]))

/-- One site stands in front of another. -/
def Site.Precedes (x y : Site) : Prop :=
  ∃ mid, y.front = x.front ++ x.item :: mid ∧ x.back = mid ++ y.item :: y.back

/-- Sites are in order. -/
theorem pairwise_sitesBehind (front items : List Item) :
    (sitesBehind front items).Pairwise Site.Precedes := by
  induction items generalizing front with
  | nil => exact List.Pairwise.nil
  | cons i rest ih =>
    refine List.pairwise_cons.mpr ⟨fun y hy => ?_, ih _⟩
    obtain ⟨pre, hfront, rfl⟩ := mem_sitesBehind_iff.mp hy
    exact ⟨pre, by simp [hfront], rfl⟩

/-! ## What marks take along -/

/-- One mark more. -/
theorem clearAfter_concat (front : List Item) (i : Item) :
    clearAfter (front ++ [i]) =
      (i.mark.isStatement && endsWithLineStart (clearAfter front) i.gap) := by
  rw [clearAfter, List.foldl_append]
  rfl

/-- What is taken along is a first part of the text behind. -/
theorem isPrefix_takenBehind (front rest : List Item) (tail : Text) :
    takenBehind front rest tail <+: nextText rest tail := by
  rw [takenBehind]
  split
  · exact isPrefix_lineTrail rest tail
  · exact List.nil_prefix

/-- What is taken along in front of another mark ends its line. -/
theorem endsLine_takenBehind (front : List Item) (i : Item) (rest : List Item) (tail : Text) :
    EndsLine (takenBehind front (i :: rest) tail) := by
  rw [takenBehind]
  split
  · rw [lineTrail]
    split
    · rename_i hgap
      exact Or.inr (getLast?_throughLineFeed (List.contains_iff_mem.mp hgap))
    · exact Or.inl rfl
  · exact Or.inl rfl

private theorem placeTokens_textToken_append (before t : Text) (tokens : List Token) :
    placeTokens (utf8Size before) (textToken t ++ tokens) =
      (textToken t).map (Token.placedAt (utf8Size before)) ++
        placeTokens (utf8Size (before ++ t)) tokens := by
  by_cases ht : t = []
  · simp [textToken, ht]
  · rw [textToken, if_neg ht, List.singleton_append, placeTokens_cons, utf8Size_append]
    rfl

namespace Site

variable (x : Site) (tail : Text)

/-- An isolated tag takes along the end of its line. -/
theorem takenBehind_concat :
    takenBehind (x.front ++ [x.item]) x.back tail =
      if x.isolated tail then lineTrail x.back tail else [] := by
  have hempty : (x.front ++ [x.item]).isEmpty = false := by simp
  rw [takenBehind, hempty]
  rfl

/-- What has been taken along stands on the lines above the mark. -/
theorem takenBehind_append_drop :
    takenBehind x.front (x.item :: x.back) tail ++
      x.item.gap.drop (takenBehind x.front (x.item :: x.back) tail).length = x.item.gap :=
  List.prefix_iff_eq_append.mp (isPrefix_takenBehind x.front (x.item :: x.back) tail)

/-- What has been taken along and the text token fill the text in front of the token. -/
theorem takenBehind_append_text :
    takenBehind x.front (x.item :: x.back) tail ++ x.text tail =
      if x.isolated tail then beforeLastLine x.item.gap else x.item.gap := by
  have hgap := x.takenBehind_append_drop tail
  rw [text]
  split
  · rw [← (endsLine_takenBehind x.front x.item x.back tail).beforeLastLine_append, hgap]
  · exact hgap

/-- Only statements are isolated. -/
theorem isolated_eq_false (h : x.item.mark.isStatement = false) : x.isolated tail = false := by
  rw [isolated, opensLine, clearAfter_concat, h, Bool.false_and, Bool.false_and]

/-- In front of an isolated tag its line is blank. -/
theorem isHorizontalOnly_lastLine (h : x.isolated tail = true) :
    isHorizontalOnly (lastLine x.item.gap) = true := by
  rw [isolated, opensLine, clearAfter_concat, endsWithLineStart] at h
  simp only [Bool.and_eq_true] at h
  exact h.1.2.1

/-- A token covers its mark with what is taken along on either side. -/
theorem source_token :
    (if x.isolated tail then beforeLastLine x.item.gap else x.item.gap) ++ (x.token tail).source =
      x.item.source ++ takenBehind (x.front ++ [x.item]) x.back tail := by
  rw [takenBehind_concat, Item.source]
  cases hmark : x.item.mark with
  | escaped literal =>
    have hisolated := x.isolated_eq_false tail (by rw [hmark]; rfl)
    simp [token, hmark, hisolated, Token.source, Mark.source]
  | tag kind content raw fenced =>
    cases hisolated : x.isolated tail with
    | false => simp [token, hmark, hisolated, Token.source, Tag.source, Mark.source]
    | true =>
      have hgap := beforeLastLine_append_lastLine x.item.gap
      simp only [token, hmark, hisolated, Token.source, Tag.source, Mark.source, if_true,
        ← List.append_assoc, hgap]

/-- The mark at a site is woven into the token of its text and its own. -/
theorem weave_eq :
    weave (clearAfter x.front) (takenBehind x.front (x.item :: x.back) tail).length
        (x.item :: x.back) tail =
      textToken (x.text tail) ++ x.token tail ::
        weave (clearAfter (x.front ++ [x.item]))
          (takenBehind (x.front ++ [x.item]) x.back tail).length x.back tail := by
  rw [takenBehind_concat, clearAfter_concat]
  obtain ⟨front, ⟨whole, mark⟩, back⟩ := x
  cases mark with
  | escaped literal =>
    have hisolated := isolated_eq_false ⟨front, ⟨whole, .escaped literal⟩, back⟩ tail rfl
    rw [text, hisolated]
    rfl
  | tag kind content raw fenced =>
    rw [weave]
    generalize hx : Site.mk front ⟨whole, .tag kind content raw fenced⟩ back = x
    have hmark : x.item.mark = .tag kind content raw fenced := by rw [← hx]
    have hgap : x.item.gap = whole := by rw [← hx]
    have hopens : (kind.isStatement && endsWithLineStart (clearAfter x.front) whole &&
        reachesLineEnd x.back tail) = x.isolated tail := by
      rw [isolated, opensLine, clearAfter_concat, hmark, hgap]
      rfl
    have hlead : lastLine (whole.drop (takenBehind x.front (x.item :: x.back) tail).length) =
        lastLine whole := by
      have hsplit := x.takenBehind_append_drop tail
      rw [hgap] at hsplit
      rw [← (endsLine_takenBehind x.front x.item x.back tail).lastLine_append, hsplit]
    rw [text, token, hmark, hgap]
    simp only [hopens, hlead]
    cases hisolated : x.isolated tail <;> rfl

/-- The token of the text in front of the mark and its own stand in their places. -/
theorem placeTokens_eq (tokens : List Token) :
    placeTokens (utf8Size (x.front.flatMap Item.source ++
          takenBehind x.front (x.item :: x.back) tail))
        (textToken (x.text tail) ++ x.token tail :: tokens) =
      x.placedText tail ++ x.placed tail ::
        placeTokens (utf8Size ((x.front ++ [x.item]).flatMap Item.source ++
          takenBehind (x.front ++ [x.item]) x.back tail)) tokens := by
  have htext := x.takenBehind_append_text tail
  have hsource := x.source_token tail
  rw [placeTokens_textToken_append, placeTokens_cons, List.append_assoc, htext, ← utf8Size_append,
    List.append_assoc, hsource, List.flatMap_append]
  simp [placedText, placed]

end Site

/-- Marks are woven into their tokens, each behind that of the text in front of it. -/
theorem placeTokens_weave (front items : List Item) (tail : Text) :
    placeTokens (utf8Size (front.flatMap Item.source ++ takenBehind front items tail))
        (weave (clearAfter front) (takenBehind front items tail).length items tail) =
      (sitesBehind front items).flatMap (fun x => x.placedText tail ++ [x.placed tail]) ++
        placedTail (front ++ items) tail := by
  induction items generalizing front with
  | nil =>
    have htext := placeTokens_textToken_append
      (front.flatMap Item.source ++ takenBehind front [] tail)
      (tail.drop (takenBehind front [] tail).length) []
    rw [List.append_nil] at htext
    rw [weave, htext, List.append_nil]
    exact List.append_nil _
  | cons i rest ih =>
    have hweave := Site.weave_eq ⟨front, i, rest⟩ tail
    have hplaced := Site.placeTokens_eq ⟨front, i, rest⟩ tail
    have hrest := ih (front ++ [i])
    dsimp only at hweave hplaced
    rw [hweave, hplaced, hrest, sitesBehind, List.flatMap_cons]
    simp

/-- The tokens of a source in their places: one for each mark, behind that of the text in front of
it. -/
theorem placeTokens_tokens (s : Settings) (cut : Cut) :
    placeTokens 0 (cut.tokens s) =
      (sitesBehind [] (cut.items s).1).flatMap
          (fun x => x.placedText (cut.items s).2 ++ [x.placed (cut.items s).2]) ++
        placedTail (cut.items s).1 (cut.items s).2 :=
  placeTokens_weave [] (cut.items s).1 (cut.items s).2

/-! ## Where sites are -/

namespace Site

variable (x : Site) (tail : Text)

/-- A site stands between the text in front of it and the text behind it. -/
theorem source_eq {front items : List Item} (h : x ∈ sitesBehind front items) :
    (front ++ items).flatMap Item.source ++ tail =
      x.before ++ x.item.mark.source ++ x.behind tail := by
  obtain ⟨pre, hfront, rfl⟩ := mem_sitesBehind_iff.mp h
  simp [before, behind, hfront, Item.source]

/-- The token of a mark is the mark where it stands. -/
theorem span_placed :
    (x.placed tail).span =
      ⟨utf8Size x.before, utf8Size (x.before ++ x.item.mark.source)⟩ := by
  rw [placed, before]
  cases hmark : x.item.mark with
  | escaped literal =>
    have hisolated := x.isolated_eq_false tail (by rw [hmark]; rfl)
    simp only [token, hmark, hisolated, Token.placedAt, Token.source, Mark.source, utf8Size_append]
    rfl
  | tag kind content raw fenced =>
    cases hisolated : x.isolated tail with
    | false => simp [token, hmark, hisolated, Token.placedAt, Mark.source, Nat.add_assoc]
    | true =>
      have hgap := congrArg utf8Size (beforeLastLine_append_lastLine x.item.gap)
      rw [utf8Size_append] at hgap
      simp [token, hmark, hisolated, Token.placedAt, Mark.source, ← hgap, Nat.add_assoc]

/-- What is consumed with the token of a mark. -/
theorem consumed_placed :
    (x.placed tail).consumed =
      ⟨utf8Size (x.front.flatMap Item.source ++
          if x.isolated tail then beforeLastLine x.item.gap else x.item.gap),
        utf8Size (x.before ++ x.item.mark.source ++
          if x.isolated tail then lineTrail x.back tail else [])⟩ := by
  have hsource := congrArg utf8Size (x.source_token tail)
  rw [takenBehind_concat, Item.source] at hsource
  simp only [utf8Size_append] at hsource
  simp only [placed, Token.placedAt, before, utf8Size_append]
  congr 1
  omega

end Site

end DocTemplate
