import DocTemplate.Proofs.Token.Sites
import Mathlib.Data.List.SplitBy

/-!
# Runs of statements

Statements with nothing but spaces and tabs between them make a run. A run is isolated as a whole,
exactly if nothing but spaces and tabs stands in front of it and behind it on its lines, and then
its tokens take these lines along without a gap. Any other token consumes what it is written as.
-/

namespace DocTemplate

open Text

/-! ## Runs in a list -/

/-- A run of a list stands between two parts of it that it is not connected to. -/
theorem exists_of_mem_splitBy {α : Type} {r : α → α → Bool} {l run : List α}
    (h : run ∈ l.splitBy r) :
    ∃ front back, l = front ++ run ++ back ∧ run ≠ [] ∧ run.IsChain (fun x y => r x y = true) ∧
      (∀ x ∈ front.getLast?, ∀ y ∈ run.head?, r x y = false) ∧
      (∀ x ∈ run.getLast?, ∀ y ∈ back.head?, r x y = false) := by
  obtain ⟨pre, post, hruns⟩ := List.append_of_mem h
  have hchain := List.isChain_getLast_head_splitBy r l
  have hflatten := List.flatten_splitBy r l
  rw [hruns] at hchain hflatten
  refine ⟨pre.flatten, post.flatten, by simpa using hflatten.symm, List.ne_nil_of_mem_splitBy h,
    List.isChain_of_mem_splitBy h, ?_, ?_⟩
  · rcases List.eq_nil_or_concat pre with rfl | ⟨pre, neighbour, rfl⟩
    · simp
    · rw [List.concat_eq_append, List.append_assoc] at hchain
      obtain ⟨hneighbour, hrun, hr⟩ := (List.isChain_append_cons_cons.mp hchain).2.1
      intro x hx y hy
      simp only [List.concat_eq_append, List.flatten_append, List.flatten_singleton,
        List.getLast?_append, List.getLast?_eq_some_getLast hneighbour, Option.some_or] at hx
      rw [List.head?_eq_some_head hrun] at hy
      cases hx
      cases hy
      exact hr
  · cases post with
    | nil => simp
    | cons neighbour post =>
      obtain ⟨hrun, hneighbour, hr⟩ := (List.isChain_append_cons_cons.mp hchain).2.1
      intro x hx y hy
      simp only [List.flatten_cons, List.head?_append, List.head?_eq_some_head hneighbour,
        Option.some_or] at hy
      rw [List.getLast?_eq_some_getLast hrun] at hx
      cases hx
      cases hy
      exact hr

/-! ## Isolation of runs -/

namespace PlacedToken

/-- Whether the token is a statement. -/
def isStatement (p : PlacedToken) : Bool :=
  match p.token with
  | .tag t => t.kind.isStatement
  | _ => false

/-- Whether the token is an isolated tag. -/
def isIsolated (p : PlacedToken) : Bool :=
  match p.token with
  | .tag t => t.isolated
  | _ => false

/-- Whether nothing but spaces and tabs stands between two tokens of a source. -/
def adjoins (source : Text) (p q : PlacedToken) : Bool :=
  (slice p.span.last q.span.first source).any isHorizontalOnly

end PlacedToken

/-- The statements of a source in maximal runs with nothing but spaces and tabs between them. -/
def statementRuns (source : Text) (placed : List PlacedToken) : List (List PlacedToken) :=
  (placed.filter (·.isStatement)).splitBy (PlacedToken.adjoins source)

/-- The ranges lead from one offset to another, each of them starting where the one before ends. -/
def Span.Tile (first : Nat) : List Span → Nat → Prop
  | [], last => first = last
  | range :: rest, last => range.first = first ∧ Span.Tile range.last rest last

/-- A run of statements between two parts of a source is isolated by what stands on its lines. -/
structure IsolatesRun (before between behind : Text) (run : List PlacedToken) : Prop where
  /-- The first statement starts behind the part in front. -/
  first : run.head?.map (·.span.first) = some (utf8Size before)
  /-- The last statement ends in front of the part behind. -/
  last : run.getLast?.map (·.span.last) = some (utf8Size (before ++ between))
  /-- All of them are isolated if nothing but spaces and tabs stands in front of the run and behind
  it on its lines, a final carriage return apart; otherwise none of them is. -/
  isolated : ∀ p ∈ run, p.isIsolated = (isHorizontalOnly (lastLine before) &&
    isHorizontalOnly (dropSuffix ['\r'] (behind.takeWhile (· != '\n'))))
  /-- If they are, they consume all from the start of the line of the first through the line feed
  behind the last, or to the end of the source. -/
  tile : (∀ p ∈ run, p.isIsolated = true) →
    Span.Tile (utf8Size (beforeLastLine before)) (run.map (·.consumed))
      (utf8Size (before ++ between ++ throughLineFeed behind))

/-- The runs of statements of a source are isolated by what stands on their lines, and nothing else
consumes more than itself. -/
structure IsolatesRuns (source : Text) (placed : List PlacedToken) : Prop where
  /-- Each run of statements stands somewhere in the source and is isolated by what is around. -/
  run : ∀ run ∈ statementRuns source placed, ∃ before between behind,
    source = before ++ between ++ behind ∧ IsolatesRun before between behind run
  /-- Only statements are isolated. -/
  statement : ∀ p ∈ placed, p.isIsolated = true → p.isStatement = true
  /-- What is not isolated consumes what it is written as. -/
  alone : ∀ p ∈ placed, p.isIsolated = false → p.consumed = p.span

/-! ## Runs of sites -/

namespace Site

/-- One site stands directly in front of another, and nothing but spaces and tabs stands between
their marks. -/
structure Joins (x y : Site) : Prop where
  /-- No mark stands between them. -/
  front : y.front = x.front ++ [x.item]
  /-- No mark stands between them. -/
  back : x.back = y.item :: y.back
  /-- The text between them is blank. -/
  gap : isHorizontalOnly y.item.gap = true

/-- A text of spaces and tabs breaks no line. -/
theorem not_mem_of_isHorizontalOnly {t : Text} (h : isHorizontalOnly t = true) : '\n' ∉ t :=
  fun hmem => absurd (List.all_eq_true.mp h '\n' hmem) (by decide)

variable {tail : Text} {x y : Site}

/-- A statement is on the same line as the statement that it joins. -/
theorem Joins.opensLine_eq (h : x.Joins y) (hy : y.item.mark.isStatement = true) :
    y.opensLine = x.opensLine := by
  have hline := not_mem_of_isHorizontalOnly h.gap
  have hcontains : y.item.gap.contains '\n' = false := by simpa using hline
  rw [opensLine, clearAfter_concat, hy, endsWithLineStart, lastLine_of_not_mem hline, h.gap,
    hcontains, Bool.or_false, Bool.true_and, Bool.true_and, h.front]
  rfl

/-- The line of a statement ends behind the statement that it joins. -/
theorem Joins.reachesLineEnd_eq (h : x.Joins y) (hy : y.item.mark.isStatement = true) :
    reachesLineEnd y.back tail = reachesLineEnd x.back tail := by
  have hcontains : y.item.gap.contains '\n' = false := by
    simpa using not_mem_of_isHorizontalOnly h.gap
  rw [h.back, reachesLineEnd, hcontains, h.gap, hy]
  rfl

/-- A statement consumes what follows what the statement before has consumed. -/
theorem Joins.consumed_eq (h : x.Joins y) (hx : x.isolated tail = true)
    (hy : y.isolated tail = true) :
    (y.placed tail).consumed.first = (x.placed tail).consumed.last := by
  have hline := not_mem_of_isHorizontalOnly h.gap
  have hbefore : beforeLastLine y.item.gap = [] := by
    have hsplit : beforeLastLine y.item.gap ++ lastLine y.item.gap = y.item.gap :=
      beforeLastLine_append_lastLine y.item.gap
    rw [lastLine_of_not_mem hline] at hsplit
    exact List.append_left_eq_self.mp hsplit
  have htrail : lineTrail x.back tail = [] := by
    rw [h.back, lineTrail, if_neg (by simpa using hline)]
  rw [consumed_placed, consumed_placed, hx, hy]
  simp [hbefore, htrail, h.front, before, Item.source]

/-- What stands in front of a site goes on from what stands in front of a site before. -/
theorem before_eq {mid : List Item} (h : y.front = x.front ++ x.item :: mid) :
    y.before = x.before ++ x.item.mark.source ++ (mid.flatMap Item.source ++ y.item.gap) := by
  simp [before, h, Item.source]

/-- Two statements adjoin exactly if one joins the other: another mark between them would leave its
brace there. -/
theorem adjoins_iff {items : List Item} (hmarks : ∀ i ∈ items, i.mark.source.getLast? = some '}')
    (hy : y ∈ sitesBehind [] items) (h : x.Precedes y) :
    (x.placed tail).adjoins (items.flatMap Item.source ++ tail) (y.placed tail) = true ↔
      x.Joins y := by
  obtain ⟨mid, hfront, hback⟩ := h
  have hbefore := before_eq hfront
  have hsource := y.source_eq tail hy
  have hslice := slice_append (x.before ++ x.item.mark.source)
    (mid.flatMap Item.source ++ y.item.gap) (y.item.mark.source ++ y.behind tail)
  rw [← utf8Size_append, ← hbefore, ← List.append_assoc, ← hsource, List.nil_append] at hslice
  rw [PlacedToken.adjoins, span_placed, span_placed, hslice, Option.any_some]
  constructor
  · intro hgap
    rcases List.eq_nil_or_concat mid with rfl | ⟨mid, i, rfl⟩
    · exact ⟨hfront, hback, hgap⟩
    · obtain ⟨pre, hpre, hitems⟩ := mem_sitesBehind_iff.mp hy
      have hi : i ∈ items := by
        rw [hitems, ← List.nil_append pre, ← hpre, hfront]
        simp
      have hbrace : '}' ∈ (mid.concat i).flatMap Item.source ++ y.item.gap := by
        simp [Item.source, List.mem_of_getLast? (hmarks i hi)]
      rw [isHorizontalOnly_eq_false (by decide) hbrace] at hgap
      cases hgap
  · intro hjoins
    have hmid : mid = [] := by
      have hlength := congrArg List.length (hfront.symm.trans hjoins.front)
      simpa using hlength
    rw [hmid]
    exact hjoins.gap

/-! ## The ends of a run -/

variable (tail)

/-- The line of the first statement of a run is clear up to it if it holds nothing but spaces and
tabs there. -/
theorem opensLine_eq_of_first (hmarks : ∀ i ∈ x.front, i.mark.source.getLast? = some '}')
    (hx : x.item.mark.isStatement = true)
    (hfirst : ∀ pre i, x.front = pre ++ [i] → i.mark.isStatement = true →
      isHorizontalOnly x.item.gap = false) :
    x.opensLine = isHorizontalOnly (lastLine x.before) ∧
      (x.opensLine = true →
        x.front.flatMap Item.source ++ beforeLastLine x.item.gap = beforeLastLine x.before) := by
  rw [opensLine, clearAfter_concat, hx, Bool.true_and, endsWithLineStart, before]
  by_cases hline : '\n' ∈ x.item.gap
  · have hlast := lastLine_append_of_mem hline (x.front.flatMap Item.source)
    rw [hlast, List.contains_iff_mem.mpr hline, Bool.or_true, Bool.and_true]
    exact ⟨rfl, fun _ => (beforeLastLine_append_of_eq hlast).symm⟩
  · rcases List.eq_nil_or_concat x.front with hfront | ⟨pre, i, hfront⟩
    · rw [hfront]
      simp [clearAfter]
    · have hbrace : '}' ∈ lastLine (x.front.flatMap Item.source ++ x.item.gap) := by
        have hlast := hmarks i (by rw [hfront]; simp)
        obtain ⟨t, ht⟩ := List.getLast?_eq_some_iff.mp hlast
        rw [lastLine_append_of_not_mem hline, hfront]
        have hitem : (pre.concat i).flatMap Item.source =
            pre.flatMap Item.source ++ i.gap ++ t ++ ['}'] := by simp [Item.source, ht]
        rw [hitem, lastLine_append_of_not_mem (by decide)]
        simp
      have hclear : (isHorizontalOnly x.item.gap && clearAfter x.front) = false := by
        rw [List.concat_eq_append] at hfront
        cases hi : i.mark.isStatement with
        | true => rw [hfirst pre i hfront hi, Bool.false_and]
        | false => rw [hfront, clearAfter_concat, hi, Bool.false_and, Bool.and_false]
      have hcontains : x.item.gap.contains '\n' = false := by simpa using hline
      rw [lastLine_of_not_mem hline, hcontains, Bool.or_false, hclear,
        isHorizontalOnly_eq_false (by decide) hbrace]
      exact ⟨rfl, fun hopen => absurd hopen Bool.false_ne_true⟩

/-- The line of the last statement of a run ends behind it if it holds nothing but spaces and tabs
there. -/
theorem reachesLineEnd_eq_of_last
    (hmarks : ∀ i ∈ x.back, ∃ c more, i.mark.source = c :: more ∧ isBlank c = false)
    (hlast : ∀ i rest, x.back = i :: rest → i.mark.isStatement = true →
      isHorizontalOnly i.gap = false) :
    reachesLineEnd x.back tail = startsWithLineEnd (x.behind tail) ∧
      (reachesLineEnd x.back tail = true →
        lineTrail x.back tail = throughLineFeed (x.behind tail)) := by
  rw [behind]
  cases hback : x.back with
  | nil => exact ⟨rfl, fun _ => rfl⟩
  | cons i rest =>
    have hbehind : (i :: rest).flatMap Item.source ++ tail =
        i.gap ++ (i.mark.source ++ (rest.flatMap Item.source ++ tail)) := by
      simp [Item.source]
    rw [hbehind]
    by_cases hline : '\n' ∈ i.gap
    · have hmem : '\n' ∈ nextText (i :: rest) tail := hline
      rw [reachesLineEnd_of_mem hmem, lineTrail_of_mem hmem, startsWithLineEnd_append hline,
        throughLineFeed_append_of_mem hline]
      exact ⟨rfl, fun _ => rfl⟩
    · obtain ⟨c, more, hmark, hc⟩ := hmarks i (by rw [hback]; simp)
      have hnot : (isHorizontalOnly i.gap && i.mark.isStatement) = false := by
        cases hi : i.mark.isStatement with
        | true => rw [hlast i rest hback hi, Bool.false_and]
        | false => rw [Bool.and_false]
      rw [reachesLineEnd, if_neg (by simpa using hline), hnot, hmark, List.cons_append,
        startsWithLineEnd_append_cons hline hc]
      exact ⟨rfl, fun hend => absurd hend Bool.false_ne_true⟩

/-! ## Along a run -/

/-- Statements that join one after the other are isolated together, and then they consume ranges one
behind the other. -/
theorem isolated_of_isChain {xs : List Site} (hchain : (x :: xs).IsChain Joins)
    (hstatements : ∀ y ∈ x :: xs, y.item.mark.isStatement = true) :
    (∀ y ∈ x :: xs, y.isolated tail = x.isolated tail) ∧
      ∀ z ∈ (x :: xs).getLast?, reachesLineEnd z.back tail = reachesLineEnd x.back tail ∧
        (x.isolated tail = true → Span.Tile (x.placed tail).consumed.first
          ((x :: xs).map fun y => (y.placed tail).consumed) (z.placed tail).consumed.last) := by
  induction xs generalizing x with
  | nil =>
    refine ⟨by simp, ?_⟩
    rintro z ⟨⟩
    exact ⟨rfl, fun _ => ⟨rfl, rfl⟩⟩
  | cons y ys ih =>
    obtain ⟨hjoins, hrest⟩ := List.isChain_cons_cons.mp hchain
    obtain ⟨-, hstatements'⟩ := List.forall_mem_cons.mp hstatements
    obtain ⟨hisolated, hlast⟩ := ih hrest hstatements'
    have hy := hstatements' y List.mem_cons_self
    have hsame : y.isolated tail = x.isolated tail := by
      rw [isolated, isolated, hjoins.opensLine_eq hy, hjoins.reachesLineEnd_eq hy]
    refine ⟨List.forall_mem_cons.mpr ⟨rfl, fun z hz => (hisolated z hz).trans hsame⟩, ?_⟩
    intro z hz
    rw [List.getLast?_cons_cons] at hz
    obtain ⟨hend, htile⟩ := hlast z hz
    refine ⟨hend.trans (hjoins.reachesLineEnd_eq hy), fun hx => ⟨rfl, ?_⟩⟩
    rw [← hjoins.consumed_eq hx (hsame.trans hx)]
    exact htile (hsame.trans hx)

end Site

/-! ## The statements of a source -/

private theorem filter_flatMap_concat {α β : Type} {p : β → Bool} {f : α → List β} {g : α → β}
    (hf : ∀ x, (f x).filter p = []) (xs : List α) :
    (xs.flatMap fun x => f x ++ [g x]).filter p = (xs.filter fun x => p (g x)).map g := by
  induction xs with
  | nil => rfl
  | cons x xs ih =>
    rw [List.flatMap_cons, List.filter_append, List.filter_append, hf, ih, List.filter_cons,
      List.filter_cons]
    cases p (g x) <;> rfl

private theorem filter_isStatement_placed (t : Text) (offset : Nat) :
    ((textToken t).map (Token.placedAt offset)).filter (·.isStatement) = [] := by
  refine List.filter_eq_nil_iff.mpr fun p hp => ?_
  obtain ⟨token, htoken, rfl⟩ := List.mem_map.mp hp
  obtain rfl := eq_text_of_mem_textToken htoken
  exact Bool.false_ne_true

/-- The token of a mark is a statement if the mark is one. -/
theorem isStatement_placed (x : Site) (tail : Text) :
    (x.placed tail).isStatement = x.item.mark.isStatement := by
  rw [Site.placed, Site.token]
  cases x.item.mark <;> rfl

/-- The token of a mark is isolated if the mark is. -/
theorem isIsolated_placed (x : Site) (tail : Text) :
    (x.placed tail).isIsolated = x.isolated tail := by
  rw [Site.placed, PlacedToken.isIsolated]
  cases hmark : x.item.mark with
  | tag kind content raw fenced => simp [Token.placedAt, Site.token, hmark]
  | escaped literal =>
    rw [x.isolated_eq_false tail (by rw [hmark]; rfl)]
    simp [Token.placedAt, Site.token, hmark]

/-- The sites of statements among marks. -/
def statementSites (items : List Item) : List Site :=
  (sitesBehind [] items).filter (·.item.mark.isStatement)

/-- The statements of a source are the tokens at the sites of statements. -/
theorem filter_isStatement_placeTokens (s : Settings) (cut : Cut) :
    (placeTokens 0 (cut.tokens s)).filter (·.isStatement) =
      (statementSites (cut.items s).1).map (Site.placed (cut.items s).2) := by
  have htexts (x : Site) : (x.placedText (cut.items s).2).filter (·.isStatement) = [] :=
    filter_isStatement_placed _ _
  rw [placeTokens_tokens, List.filter_append, filter_flatMap_concat htexts, placedTail,
    filter_isStatement_placed, List.append_nil, statementSites]
  simp only [isStatement_placed]

/-! ## Neighbours -/

private theorem getLast?_eq_of_lt {α : Type} {f : α → Nat} {front rest : List α} {x w : α}
    (h : (front ++ x :: rest).Pairwise (f · < f ·)) (hw : w ∈ front ++ x :: rest)
    (hnext : f x = f w + 1) : front.getLast? = some w := by
  obtain ⟨hfront, hrest, hbelow⟩ := List.pairwise_append.mp h
  have hmem : w ∈ front := by
    rcases List.mem_append.mp hw with hw | hw
    · exact hw
    · rcases List.mem_cons.mp hw with rfl | hw
      · omega
      · have hlt := (List.pairwise_cons.mp hrest).1 w hw
        omega
  obtain ⟨pre, post, rfl⟩ := List.append_of_mem hmem
  cases post with
  | nil => exact List.getLast?_concat
  | cons z post =>
    -- Another element between the two would need a number between theirs.
    have hz := (List.pairwise_cons.mp (List.pairwise_append.mp hfront).2.1).1 z List.mem_cons_self
    have hx := hbelow z (by simp) x List.mem_cons_self
    omega

private theorem head?_eq_of_lt {α : Type} {f : α → Nat} {front back : List α} {x w : α}
    (h : (front ++ x :: back).Pairwise (f · < f ·)) (hw : w ∈ front ++ x :: back)
    (hnext : f w = f x + 1) : back.head? = some w := by
  obtain ⟨hfront, hrest, hbelow⟩ := List.pairwise_append.mp h
  obtain ⟨habove, hback⟩ := List.pairwise_cons.mp hrest
  have hmem : w ∈ back := by
    rcases List.mem_append.mp hw with hw | hw
    · have hlt := hbelow w hw x List.mem_cons_self
      omega
    · rcases List.mem_cons.mp hw with rfl | hw
      · omega
      · exact hw
  obtain ⟨pre, post, rfl⟩ := List.append_of_mem hmem
  cases pre with
  | nil => rfl
  | cons z pre =>
    have hz := (List.pairwise_cons.mp hback).1 w (by simp)
    have hx := habove z List.mem_cons_self
    omega

section Neighbours

variable {items : List Item} {x w : Site}

/-- Statements are numbered by the marks in front of them. -/
theorem pairwise_statementSites (items : List Item) :
    (statementSites items).Pairwise Site.Precedes :=
  (pairwise_sitesBehind [] items).filter _

private theorem length_lt_of_precedes {x y : Site} (h : x.Precedes y) :
    x.front.length < y.front.length := by
  obtain ⟨mid, hfront, -⟩ := h
  rw [hfront, List.length_append, List.length_cons]
  omega

/-- The statement directly in front of a statement is the last one of those in front. -/
theorem getLast?_of_statementSites {front rest : List Site}
    (h : statementSites items = front ++ x :: rest) (hw : w ∈ statementSites items)
    (hnext : x.front = w.front ++ [w.item]) : front.getLast? = some w := by
  have hpairwise := (pairwise_statementSites items).imp length_lt_of_precedes
  rw [h] at hpairwise hw
  exact getLast?_eq_of_lt hpairwise hw (by simp [hnext])

/-- The statement directly behind a statement is the first one of those behind. -/
theorem head?_of_statementSites {front back : List Site}
    (h : statementSites items = front ++ x :: back) (hw : w ∈ statementSites items)
    (hnext : w.front = x.front ++ [x.item]) : back.head? = some w := by
  have hpairwise := (pairwise_statementSites items).imp length_lt_of_precedes
  rw [h] at hpairwise hw
  exact head?_eq_of_lt hpairwise hw (by simp [hnext])

/-- From the start of a statement to the end of a statement behind it the source goes on. -/
theorem exists_between {front rest : List Site} (h : statementSites items = front ++ x :: rest)
    (hw : w ∈ x :: rest) :
    ∃ between, w.before ++ w.item.mark.source = x.before ++ between := by
  rcases List.mem_cons.mp hw with rfl | hw
  · exact ⟨_, rfl⟩
  · have hpairwise := pairwise_statementSites items
    rw [h] at hpairwise
    obtain ⟨hbehind, -⟩ := List.pairwise_cons.mp (List.pairwise_append.mp hpairwise).2.1
    obtain ⟨mid, hmid, -⟩ := hbehind w hw
    rw [Site.before_eq hmid, List.append_assoc, List.append_assoc]
    exact ⟨_, rfl⟩

end Neighbours

/-! ## Runs are isolated as a whole -/

/-- The marks of a source, as they are written, start with a visible character and end with a
brace. -/
structure AreDelimited (items : List Item) : Prop where
  /-- They start with a visible character. -/
  first : ∀ i ∈ items, ∃ c more, i.mark.source = c :: more ∧ isBlank c = false
  /-- They end with a brace. -/
  last : ∀ i ∈ items, i.mark.source.getLast? = some '}'

private theorem mem_of_mem_front {items : List Item} {x : Site} (hx : x ∈ sitesBehind [] items)
    {i : Item} (hi : i ∈ x.front) : i ∈ items := by
  obtain ⟨pre, hfront, rfl⟩ := mem_sitesBehind_iff.mp hx
  exact List.mem_append_left _ (by simpa [hfront] using hi)

private theorem mem_of_mem_back {items : List Item} {x : Site} (hx : x ∈ sitesBehind [] items)
    {i : Item} (hi : i ∈ x.back) : i ∈ items := by
  obtain ⟨pre, -, rfl⟩ := mem_sitesBehind_iff.mp hx
  exact List.mem_append_right _ (List.mem_cons_of_mem _ hi)

section Run

variable {items : List Item} {tail : Text} (hmarks : AreDelimited items)

include hmarks

/-- In a run of statements each one joins the next. -/
theorem isChain_joins {front run back : List Site}
    (h : statementSites items = front ++ run ++ back)
    (hrun : (run.map (Site.placed tail)).IsChain fun p q =>
      p.adjoins (items.flatMap Item.source ++ tail) q = true) : run.IsChain Site.Joins := by
  rw [List.isChain_map] at hrun
  refine List.isChain_iff_forall_rel_of_append_cons_cons.mpr fun x y pre post hsplit => ?_
  have hxy := List.isChain_iff_forall_rel_of_append_cons_cons.mp hrun hsplit
  have hsites := pairwise_statementSites items
  have hy : y ∈ statementSites items := by simp [h, hsplit]
  rw [h, hsplit] at hsites
  have hprecedes : x.Precedes y := by
    have hrest := (List.pairwise_append.mp (List.pairwise_append.mp hsites).1).2.1
    exact (List.pairwise_cons.mp (List.pairwise_append.mp hrest).2.1).1 y List.mem_cons_self
  exact (Site.adjoins_iff hmarks.last (List.mem_filter.mp hy).1 hprecedes).mp hxy

/-- A statement that does not adjoin the statement in front of it is separated from it by more than
spaces and tabs. -/
theorem isHorizontalOnly_eq_false_of_first {front rest : List Site} {x : Site}
    (h : statementSites items = front ++ x :: rest)
    (hfront : ∀ w ∈ front.getLast?,
      (w.placed tail).adjoins (items.flatMap Item.source ++ tail) (x.placed tail) = false)
    {pre : List Item} {i : Item} (hpre : x.front = pre ++ [i]) (hi : i.mark.isStatement = true) :
    isHorizontalOnly x.item.gap = false := by
  have hx : x ∈ sitesBehind [] items := by
    have hmem : x ∈ statementSites items := by simp [h]
    exact (List.mem_filter.mp hmem).1
  have hw : ⟨pre, i, x.item :: x.back⟩ ∈ statementSites items := by
    obtain ⟨front', hfront', hitems⟩ := mem_sitesBehind_iff.mp hx
    rw [List.nil_append] at hfront'
    refine List.mem_filter.mpr ⟨mem_sitesBehind_iff.mpr ⟨pre, rfl, ?_⟩, hi⟩
    simp [hitems, ← hfront', hpre]
  have hnot := hfront _ (getLast?_of_statementSites h hw hpre)
  by_contra hgap
  rw [Bool.not_eq_false] at hgap
  rw [(Site.adjoins_iff hmarks.last hx ⟨[], hpre, rfl⟩).mpr ⟨hpre, rfl, hgap⟩] at hnot
  cases hnot

/-- A statement that is not adjoined by the statement behind it is separated from it by more than
spaces and tabs. -/
theorem isHorizontalOnly_eq_false_of_last {front back : List Site} {x : Site}
    (h : statementSites items = front ++ x :: back)
    (hback : ∀ w ∈ back.head?,
      (x.placed tail).adjoins (items.flatMap Item.source ++ tail) (w.placed tail) = false)
    {i : Item} {rest : List Item} (hrest : x.back = i :: rest) (hi : i.mark.isStatement = true) :
    isHorizontalOnly i.gap = false := by
  have hsite : ⟨x.front ++ [x.item], i, rest⟩ ∈ sitesBehind [] items := by
    have hmem : x ∈ statementSites items := by simp [h]
    obtain ⟨front', hfront', hitems⟩ := mem_sitesBehind_iff.mp (List.mem_filter.mp hmem).1
    rw [List.nil_append] at hfront'
    exact mem_sitesBehind_iff.mpr ⟨_, rfl, by simp [hitems, ← hfront', hrest]⟩
  have hw : ⟨x.front ++ [x.item], i, rest⟩ ∈ statementSites items := List.mem_filter.mpr ⟨hsite, hi⟩
  have hnot := hback _ (head?_of_statementSites h hw rfl)
  by_contra hgap
  rw [Bool.not_eq_false] at hgap
  rw [(Site.adjoins_iff hmarks.last hsite ⟨[], rfl, hrest⟩).mpr ⟨rfl, hrest, hgap⟩] at hnot
  cases hnot

/-- A maximal run of statements is isolated by what stands on its lines. -/
theorem isolatesRun_of_sites {front xs back : List Site} {x : Site}
    (h : statementSites items = front ++ (x :: xs) ++ back)
    (hchain : (x :: xs).IsChain Site.Joins)
    (hfront : ∀ w ∈ front.getLast?,
      (w.placed tail).adjoins (items.flatMap Item.source ++ tail) (x.placed tail) = false)
    (hback : ∀ z ∈ (x :: xs).getLast?, ∀ w ∈ back.head?,
      (z.placed tail).adjoins (items.flatMap Item.source ++ tail) (w.placed tail) = false) :
    ∃ before between behind, items.flatMap Item.source ++ tail = before ++ between ++ behind ∧
      IsolatesRun before between behind ((x :: xs).map (Site.placed tail)) := by
  have hlast := List.getLast?_eq_some_getLast (List.cons_ne_nil x xs)
  obtain ⟨ys, hys⟩ := List.getLast?_eq_some_iff.mp hlast
  generalize (x :: xs).getLast (List.cons_ne_nil x xs) = z at hlast hys
  have hsites : ∀ y ∈ x :: xs, y ∈ sitesBehind [] items ∧ y.item.mark.isStatement = true := by
    intro y hy
    refine List.mem_filter.mp (?_ : y ∈ statementSites items)
    rw [h]
    exact List.mem_append_left _ (List.mem_append_right _ hy)
  have hz : z ∈ x :: xs := by simp [hys]
  have hxsplit : statementSites items = front ++ x :: (xs ++ back) := by simpa using h
  have hzsplit : statementSites items = (front ++ ys) ++ z :: back := by simpa [hys] using h
  obtain ⟨hx, hxstatement⟩ := hsites x List.mem_cons_self
  obtain ⟨hzsite, -⟩ := hsites z hz
  obtain ⟨hisolated, hend⟩ :=
    Site.isolated_of_isChain tail hchain fun y hy => (hsites y hy).2
  obtain ⟨hclose, htile⟩ := hend z hlast
  obtain ⟨hopens, hstart⟩ := Site.opensLine_eq_of_first (x := x)
    (fun i hi => hmarks.last i (mem_of_mem_front hx hi)) hxstatement
    fun pre i hpre hi => isHorizontalOnly_eq_false_of_first hmarks hxsplit hfront hpre hi
  obtain ⟨hcloses, hstop⟩ := Site.reachesLineEnd_eq_of_last tail (x := z)
    (fun i hi => hmarks.first i (mem_of_mem_back hzsite hi))
    fun i rest hrest hi => isHorizontalOnly_eq_false_of_last hmarks hzsplit (hback z hlast) hrest hi
  obtain ⟨between, hbetween⟩ := exists_between hxsplit
    (List.mem_cons.mpr ((List.mem_cons.mp hz).imp_right (List.mem_append_left back)))
  refine ⟨x.before, between, z.behind tail, ?_, ?_, ?_, ?_, ?_⟩
  · rw [← hbetween]
    exact z.source_eq tail hzsite
  · simp [Site.span_placed]
  · rw [List.getLast?_map, hlast, ← hbetween]
    simp only [Option.map_some, Site.span_placed]
  · intro p hp
    obtain ⟨y, hy, rfl⟩ := List.mem_map.mp hp
    rw [isIsolated_placed, hisolated y hy, Site.isolated, hopens, ← hclose, hcloses]
    rfl
  · intro hall
    have hxisolated : x.isolated tail = true := by
      rw [← isIsolated_placed]
      exact hall _ List.mem_cons_self
    have hzisolated := (hisolated z hz).trans hxisolated
    obtain ⟨hxopens, -⟩ := Bool.and_eq_true_iff.mp hxisolated
    obtain ⟨-, hzcloses⟩ := Bool.and_eq_true_iff.mp hzisolated
    have hrange := htile hxisolated
    rw [Site.consumed_placed, Site.consumed_placed, hxisolated, hzisolated, if_pos rfl, if_pos rfl,
      hstart hxopens, hstop hzcloses, hbetween] at hrange
    rw [List.map_map]
    exact hrange

end Run

private theorem eq_placed_or_text {s : Settings} {cut : Cut} {p : PlacedToken}
    (hp : p ∈ placeTokens 0 (cut.tokens s)) :
    (∃ x : Site, p = x.placed (cut.items s).2) ∨
      ∃ offset t, p = (Token.text t).placedAt offset := by
  have htext {offset : Nat} {t : Text} (hp : p ∈ (textToken t).map (Token.placedAt offset)) :
      ∃ offset t, p = (Token.text t).placedAt offset := by
    obtain ⟨token, htoken, rfl⟩ := List.mem_map.mp hp
    obtain rfl := eq_text_of_mem_textToken htoken
    exact ⟨offset, t, rfl⟩
  rw [placeTokens_tokens] at hp
  rcases List.mem_append.mp hp with hp | hp
  · obtain ⟨x, -, hp⟩ := List.mem_flatMap.mp hp
    rcases List.mem_append.mp hp with hp | hp
    · exact Or.inr (htext hp)
    · exact Or.inl ⟨x, List.mem_singleton.mp hp⟩
  · exact Or.inr (htext hp)

/-- The runs of statements of any source are isolated by what stands on their lines. -/
theorem isolatesRuns_of_scan (s : Settings) (source : Text) (tokens : List Token)
    (h : scan s source = .ok tokens) : IsolatesRuns source (placeTokens 0 tokens) := by
  obtain ⟨cut, hcut, rfl⟩ := scan_eq_ok_iff.mp h
  have hsource : (cut.items s).1.flatMap Item.source ++ (cut.items s).2 = source := by
    have hitems := collectItems_source s [] cut.constructs cut.tail
    exact hitems.trans (Cut.source_of_ofFlagged hcut)
  have hmarks : AreDelimited (cut.items s).1 :=
    ⟨fun i hi => exists_cons_source_of_mem_collectItems hi,
      fun i hi => getLast?_source_of_mem_collectItems hi⟩
  refine ⟨?_, ?_, ?_⟩
  · intro run hrun
    rw [statementRuns, filter_isStatement_placeTokens] at hrun
    obtain ⟨front, back, hlist, hne, hchain, hfront, hback⟩ := exists_of_mem_splitBy hrun
    obtain ⟨sites, back, hsites, hfirst, rfl⟩ := List.map_eq_append_iff.mp hlist
    obtain ⟨front, run, rfl, rfl, rfl⟩ := List.map_eq_append_iff.mp hfirst
    rw [← hsource] at hchain hfront hback ⊢
    obtain ⟨x, xs, rfl⟩ := List.exists_cons_of_ne_nil (l := run) (by simpa using hne)
    refine isolatesRun_of_sites hmarks hsites (isChain_joins hmarks hsites hchain) ?_ ?_
    · intro w hw
      refine hfront (w.placed _) ?_ (x.placed _) rfl
      rw [List.getLast?_map, Option.mem_def.mp hw]
      rfl
    · intro z hz w hw
      refine hback (z.placed _) ?_ (w.placed _) ?_
      · rw [List.getLast?_map, Option.mem_def.mp hz]
        rfl
      · rw [List.head?_map, Option.mem_def.mp hw]
        rfl
  · intro p hp hisolated
    rcases eq_placed_or_text hp with ⟨x, rfl⟩ | ⟨offset, t, rfl⟩
    · rw [isIsolated_placed] at hisolated
      rw [isStatement_placed]
      by_contra hstatement
      rw [x.isolated_eq_false _ (Bool.eq_false_iff.mpr hstatement)] at hisolated
      cases hisolated
    · cases hisolated
  · intro p hp hisolated
    rcases eq_placed_or_text hp with ⟨x, rfl⟩ | ⟨offset, t, rfl⟩
    · rw [isIsolated_placed] at hisolated
      rw [Site.consumed_placed, Site.span_placed, hisolated]
      simp [Site.before]
    · rfl

/-- A line with two statements, of which the second is broken, in front of a line on which two
statements stand beside a text. -/
def sharedLine : Text :=
  "a\n {% for x in y %}\t".toList ++ "\x7b% if\nx %\x7d \r\n".toList ++
    "{% endif %}b{% endfor %}".toList

/-- The tokens of these lines. -/
def sharedLineTokens : List Token :=
  [.text "a\n".toList,
    .tag ⟨.statement .loop, "for x in y".toList, [' '], "{% for x in y %}".toList, [], true, false⟩,
    .tag ⟨.statement .condition, "if\nx".toList, ['\t'], "\x7b% if\nx %\x7d".toList,
      " \r\n".toList, true, false⟩,
    .tag ⟨.statement .endCondition, "endif".toList, [], "{% endif %}".toList, [], false, false⟩,
    .text ['b'],
    .tag ⟨.statement .endLoop, "endfor".toList, [], "{% endfor %}".toList, [], false, false⟩]

/-- The first two statements take their lines along, and the others stay where they are. -/
theorem isolatesRuns_of_scan_sharedLine :
    scan {} sharedLine = .ok sharedLineTokens ∧
      (statementRuns sharedLine (placeTokens 0 sharedLineTokens)).map List.length = [2, 1, 1] ∧
      IsolatesRuns sharedLine (placeTokens 0 sharedLineTokens) :=
  have h : scan {} sharedLine = .ok sharedLineTokens := by decide +kernel
  ⟨h, by decide +kernel, isolatesRuns_of_scan {} sharedLine sharedLineTokens h⟩

end DocTemplate
