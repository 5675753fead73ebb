import DocTemplate.Proofs.Token.Runs

/-!
# What statements drop

A run of isolated statements drops the spaces and tabs on its line and the end of the line. The end
of a line is a line feed, perhaps with a carriage return in front of it, or nothing at the end of
the source. A carriage return that ends the source is no end of a line, but it is dropped as well.
-/

namespace DocTemplate

open Text

/-- What may end a line: at most one line feed, perhaps with a carriage return in front of it. -/
def lineEndings : List Text := [[], ['\n'], ['\r', '\n']]

/-- Besides themselves the statements of a run consume spaces and tabs, and at the very end
`ending`. -/
structure DropsLine (source : Text) (run : List PlacedToken) (ending : Text) : Prop where
  /-- In front of each of them these are spaces and tabs. -/
  lead : ∀ p ∈ run, (slice p.consumed.first p.span.first source).any isHorizontalOnly = true
  /-- Behind all but the last of them it is nothing. -/
  between : ∀ p ∈ run.dropLast, p.consumed.last = p.span.last
  /-- Behind the last of them these are spaces and tabs, then `ending`. -/
  trail : ∀ p ∈ run.getLast?, ∃ blanks, isHorizontalOnly blanks = true ∧
    slice p.span.last p.consumed.last source = some (blanks ++ ending)

/-- The run drops a carriage return that ends the source. -/
def DropsReturn (source : Text) (run : List PlacedToken) : Prop :=
  DropsLine source run ['\r'] ∧ ∀ p ∈ run.getLast?, p.consumed.last = utf8Size source

/-- Statements drop nothing but the blanks of their own lines and the ends of these, a carriage
return at the end of the source apart. -/
structure DropsOwnLines (source : Text) (placed : List PlacedToken) : Prop where
  /-- A run with an isolated statement drops blanks and what may end a line, unless it drops blanks
  and a carriage return that ends the source. -/
  run : ∀ run ∈ statementRuns source placed, (∃ p ∈ run, p.isIsolated = true) →
    ((∃ ending ∈ lineEndings, DropsLine source run ending) ↔ ¬ DropsReturn source run)
  /-- A statement that is not isolated consumes nothing but itself. -/
  alone : ∀ p ∈ placed, p.isStatement = true → p.isIsolated = false → p.consumed = p.span

/-! ## The end of a line -/

/-- The blank end of a line is made of spaces and tabs, then what may end a line; or there is a
carriage return and no line feed. -/
theorem exists_ending {t : Text} (h : startsWithLineEnd t = true) :
    ∃ blanks ending, isHorizontalOnly blanks = true ∧ throughLineFeed t = blanks ++ ending ∧
      (ending ∈ lineEndings ∨ ending = ['\r'] ∧ '\n' ∉ t) := by
  rw [startsWithLineEnd] at h
  have hthrough := throughLineFeed_eq t
  by_cases hreturn : ['\r'].isSuffixOf (t.takeWhile (· != '\n')) = true
  · refine ⟨_, ['\r'] ++ if '\n' ∈ t then ['\n'] else [], h, ?_, ?_⟩
    · rw [hthrough, ← List.append_assoc, dropSuffix_append hreturn]
    · by_cases hline : '\n' ∈ t
      · rw [if_pos hline]
        exact Or.inl (by decide)
      · rw [if_neg hline]
        exact Or.inr ⟨rfl, hline⟩
  · rw [dropSuffix, if_neg hreturn] at h
    refine ⟨_, _, h, hthrough, Or.inl ?_⟩
    by_cases hline : '\n' ∈ t
    · rw [if_pos hline]
      decide
    · rw [if_neg hline]
      decide

/-- What a run drops is told in one way. -/
theorem DropsLine.not_return {source : Text} {run : List PlacedToken} {ending : Text}
    (h : DropsLine source run ending) (hne : run ≠ []) (hending : ending ∈ lineEndings) :
    ¬ DropsLine source run ['\r'] := by
  intro hreturn
  have hlast := List.getLast?_eq_some_getLast hne
  obtain ⟨blanks, hblanks, htrail⟩ := h.trail _ hlast
  obtain ⟨blanks', -, htrail'⟩ := hreturn.trail _ hlast
  rw [htrail, Option.some.injEq] at htrail'
  have hend := congrArg List.getLast? htrail'
  simp only [lineEndings, List.mem_cons, List.not_mem_nil, or_false] at hending
  rcases hending with rfl | rfl | rfl
  · have hmem : '\r' ∈ blanks := by
      rw [List.append_nil] at htrail'
      simp [htrail']
    exact absurd (List.all_eq_true.mp hblanks _ hmem) (by decide)
  · simp at hend
  · simp at hend

/-! ## What is dropped at a site -/

namespace Site

variable {tail : Text} {x y : Site}

/-- A statement takes nothing along behind it in front of the statement that it joins. -/
theorem Joins.lineTrail_eq_nil (h : x.Joins y) : lineTrail x.back tail = [] := by
  have hline := not_mem_of_isHorizontalOnly h.gap
  rw [h.back, lineTrail, if_neg (by simpa using hline)]

/-- All but the last of statements that join one after the other take nothing along behind them. -/
theorem lineTrail_eq_nil_of_isChain {xs : List Site} (h : xs.IsChain Joins) :
    ∀ x ∈ xs.dropLast, lineTrail x.back tail = [] := by
  induction xs with
  | nil => nofun
  | cons x xs ih =>
    cases xs with
    | nil => nofun
    | cons y ys =>
      obtain ⟨hjoins, hrest⟩ := List.isChain_cons_cons.mp h
      rw [List.dropLast_cons_of_ne_nil (List.cons_ne_nil y ys)]
      exact List.forall_mem_cons.mpr ⟨hjoins.lineTrail_eq_nil, ih hrest⟩

/-- What a statement that reaches the end of its line takes along behind it. -/
theorem exists_lineTrail_eq (h : reachesLineEnd x.back tail = true) :
    ∃ blanks ending, isHorizontalOnly blanks = true ∧ lineTrail x.back tail = blanks ++ ending ∧
      (ending ∈ lineEndings ∨ ending = ['\r'] ∧ lineTrail x.back tail = x.behind tail) := by
  rw [behind]
  cases hback : x.back with
  | nil =>
    rw [hback] at h
    obtain ⟨blanks, ending, hblanks, hthrough, hending⟩ := exists_ending h
    exact ⟨blanks, ending, hblanks, hthrough,
      hending.imp_right fun hr => ⟨hr.1, throughLineFeed_of_not_mem hr.2⟩⟩
  | cons i rest =>
    rw [hback] at h
    by_cases hline : '\n' ∈ i.gap
    · rw [reachesLineEnd, if_pos (List.contains_iff_mem.mpr hline)] at h
      obtain ⟨blanks, ending, hblanks, hthrough, hending⟩ := exists_ending h
      rw [lineTrail, if_pos (List.contains_iff_mem.mpr hline)]
      exact ⟨blanks, ending, hblanks, hthrough, Or.inl (hending.resolve_right fun hr => hr.2 hline)⟩
    · rw [lineTrail, if_neg (by simpa using hline)]
      exact ⟨[], [], rfl, rfl, Or.inl (by decide)⟩

/-- In front of an isolated mark spaces and tabs are dropped. -/
theorem slice_lead {items : List Item} (hx : x ∈ sitesBehind [] items)
    (hisolated : x.isolated tail = true) :
    (slice (x.placed tail).consumed.first (x.placed tail).span.first
      (items.flatMap Item.source ++ tail)).any isHorizontalOnly = true := by
  have hgap := beforeLastLine_append_lastLine x.item.gap
  have hslice := slice_append (x.front.flatMap Item.source ++ beforeLastLine x.item.gap)
    (lastLine x.item.gap) (x.item.mark.source ++ x.behind tail)
  have hsource := x.source_eq tail hx
  rw [List.nil_append] at hsource
  rw [← utf8Size_append, List.append_assoc _ (beforeLastLine _), hgap, ← before,
    ← List.append_assoc, ← hsource] at hslice
  rw [consumed_placed, span_placed, hisolated, if_pos rfl, hslice, Option.any_some]
  exact x.isHorizontalOnly_lastLine tail hisolated

/-- Behind an isolated mark what it takes along is dropped. -/
theorem slice_trail {items : List Item} (hx : x ∈ sitesBehind [] items)
    (hisolated : x.isolated tail = true) :
    slice (x.placed tail).span.last (x.placed tail).consumed.last
      (items.flatMap Item.source ++ tail) = some (lineTrail x.back tail) := by
  obtain ⟨more, hmore⟩ : lineTrail x.back tail <+: x.behind tail :=
    (isPrefix_lineTrail x.back tail).trans (isPrefix_nextText x.back tail)
  have hslice := slice_append (x.before ++ x.item.mark.source) (lineTrail x.back tail) more
  have hsource := x.source_eq tail hx
  rw [List.nil_append] at hsource
  rw [← utf8Size_append, List.append_assoc _ (lineTrail _ _), hmore, ← hsource] at hslice
  rw [consumed_placed, span_placed, hisolated, if_pos rfl, if_pos rfl]
  exact hslice

end Site

/-! ## What the statements of a source drop -/

/-- Isolated statements that join one after the other drop spaces and tabs, and at the very end what
may end a line or a carriage return that ends the source. -/
theorem dropsLine_of_sites {items : List Item} {tail : Text} {xs : List Site}
    (hsites : ∀ x ∈ xs, x ∈ sitesBehind [] items) (hchain : xs.IsChain Site.Joins) (hne : xs ≠ [])
    (hisolated : ∀ x ∈ xs, x.isolated tail = true) :
    (∃ ending ∈ lineEndings,
        DropsLine (items.flatMap Item.source ++ tail) (xs.map (Site.placed tail)) ending) ∨
      DropsReturn (items.flatMap Item.source ++ tail) (xs.map (Site.placed tail)) := by
  have hlast := List.getLast?_eq_some_getLast hne
  have hmem := List.getLast_mem hne
  generalize xs.getLast hne = z at hlast hmem
  have hplaced : ∀ p ∈ (xs.map (Site.placed tail)).getLast?, p = z.placed tail := by
    rw [List.getLast?_map, hlast]
    rintro p ⟨⟩
    rfl
  obtain ⟨-, hcloses⟩ := Bool.and_eq_true_iff.mp (hisolated z hmem)
  obtain ⟨blanks, ending, hblanks, htrail, hending⟩ := Site.exists_lineTrail_eq hcloses
  have hdrops : DropsLine (items.flatMap Item.source ++ tail) (xs.map (Site.placed tail))
      ending := by
    refine ⟨?_, ?_, ?_⟩
    · intro p hp
      obtain ⟨x, hx, rfl⟩ := List.mem_map.mp hp
      exact Site.slice_lead (hsites x hx) (hisolated x hx)
    · intro p hp
      rw [← List.map_dropLast] at hp
      obtain ⟨x, hx, rfl⟩ := List.mem_map.mp hp
      rw [Site.consumed_placed, Site.span_placed, Site.lineTrail_eq_nil_of_isChain hchain x hx,
        ite_self, List.append_nil]
    · intro p hp
      obtain rfl := hplaced p hp
      exact ⟨blanks, hblanks, by rw [Site.slice_trail (hsites z hmem) (hisolated z hmem), htrail]⟩
  rcases hending with hending | ⟨rfl, hwhole⟩
  · exact Or.inl ⟨ending, hending, hdrops⟩
  · refine Or.inr ⟨hdrops, fun p hp => ?_⟩
    obtain rfl := hplaced p hp
    have hsource := z.source_eq tail (hsites z hmem)
    rw [List.nil_append] at hsource
    rw [Site.consumed_placed, hisolated z hmem, if_pos rfl, if_pos rfl, hwhole, hsource]

/-- The statements of any source drop nothing but the blanks of their own lines and the ends of
these, a carriage return at the end of the source apart. -/
theorem dropsOwnLines_of_scan (s : Settings) (source : Text) (tokens : List Token)
    (h : scan s source = .ok tokens) : DropsOwnLines source (placeTokens 0 tokens) := by
  obtain ⟨cut, hcut, rfl⟩ := scan_eq_ok_iff.mp h
  have hsource : (cut.items s).1.flatMap Item.source ++ (cut.items s).2 = source := by
    have hitems := collectItems_source s [] cut.constructs cut.tail
    exact hitems.trans (Cut.source_of_ofFlagged hcut)
  have hmarks : AreDelimited (cut.items s).1 :=
    ⟨fun i hi => exists_cons_source_of_mem_collectItems hi,
      fun i hi => getLast?_source_of_mem_collectItems hi⟩
  constructor
  · rintro run hrun ⟨p, hp, hisolated⟩
    rw [statementRuns, filter_isStatement_placeTokens] at hrun
    obtain ⟨front, back, hlist, hne, hchain, -, -⟩ := exists_of_mem_splitBy hrun
    obtain ⟨sites, back, hsites, hfirst, rfl⟩ := List.map_eq_append_iff.mp hlist
    obtain ⟨front, xs, rfl, rfl, rfl⟩ := List.map_eq_append_iff.mp hfirst
    rw [← hsource] at hchain ⊢
    have hplaces : ∀ x ∈ xs, x ∈ sitesBehind [] (cut.items s).1 ∧
        x.item.mark.isStatement = true := by
      intro x hx
      refine List.mem_filter.mp (?_ : x ∈ statementSites (cut.items s).1)
      rw [hsites]
      exact List.mem_append_left _ (List.mem_append_right _ hx)
    have hjoins := isChain_joins hmarks hsites hchain
    -- In a run all statements are isolated or none is.
    have hxs : ∀ x ∈ xs, x.isolated (cut.items s).2 = true := by
      obtain ⟨y, hy, rfl⟩ := List.mem_map.mp hp
      rw [isIsolated_placed] at hisolated
      obtain ⟨x, xs, rfl⟩ := List.exists_cons_of_ne_nil (List.ne_nil_of_mem hy)
      obtain ⟨hsame, -⟩ := Site.isolated_of_isChain (cut.items s).2 hjoins fun x hx =>
        (hplaces x hx).2
      intro x hx
      rw [hsame x hx, ← hsame y hy, hisolated]
    have hdrops :=
      dropsLine_of_sites (fun x hx => (hplaces x hx).1) hjoins (by simpa using hne) hxs
    constructor
    · rintro ⟨ending, hending, hline⟩ hreturn
      exact hline.not_return hne hending hreturn.1
    · exact hdrops.resolve_right
  · intro p hp hstatement hisolated
    have hmem := List.mem_filter.mpr ⟨hp, hstatement⟩
    rw [filter_isStatement_placeTokens] at hmem
    obtain ⟨x, -, rfl⟩ := List.mem_map.mp hmem
    rw [isIsolated_placed] at hisolated
    rw [Site.consumed_placed, Site.span_placed, hisolated]
    simp [Site.before]

/-- A line with two statements between blanks, in front of a line without a line feed. -/
def statementLines : Text :=
  "a\n {% if x %}\t{% endif %} \r\n".toList ++ "{% for v in s %}{% endfor %}\t\r".toList

/-- The tokens of these lines. -/
def statementLineTokens : List Token :=
  [.text "a\n".toList,
    .tag ⟨.statement .condition, "if x".toList, [' '], "{% if x %}".toList, [], true, false⟩,
    .tag ⟨.statement .endCondition, "endif".toList, ['\t'], "{% endif %}".toList, " \r\n".toList,
      true, false⟩,
    .tag ⟨.statement .loop, "for v in s".toList, [], "{% for v in s %}".toList, [], true, false⟩,
    .tag ⟨.statement .endLoop, "endfor".toList, [], "{% endfor %}".toList, "\t\r".toList, true,
      false⟩]

/-- The first two statements drop the blanks of their line and its end, and the others a carriage
return that ends no line. -/
theorem dropsOwnLines_of_scan_statementLines :
    scan {} statementLines = .ok statementLineTokens ∧
      (statementRuns statementLines (placeTokens 0 statementLineTokens)).map List.length = [2, 2] ∧
      DropsOwnLines statementLines (placeTokens 0 statementLineTokens) :=
  have h : scan {} statementLines = .ok statementLineTokens := by decide +kernel
  ⟨h, by decide +kernel, dropsOwnLines_of_scan {} statementLines statementLineTokens h⟩

/-- Two statements with nothing but a carriage return behind them. -/
def returnAtEnd : Text := "{% if x %}{% endif %}".toList ++ ['\r']

/-- Their tokens, of which the second takes the carriage return along. -/
def returnAtEndTokens : List Token :=
  [.tag ⟨.statement .condition, "if x".toList, [], "{% if x %}".toList, [], true, false⟩,
    .tag ⟨.statement .endCondition, "endif".toList, [], "{% endif %}".toList, ['\r'], true, false⟩]

/-- Not every isolated run drops only blanks and what may end a line. -/
theorem exists_return_dropped :
    ¬ ∀ (s : Settings) (source : Text) (tokens : List Token), scan s source = .ok tokens →
      ∀ run ∈ statementRuns source (placeTokens 0 tokens), (∀ p ∈ run, p.isIsolated = true) →
        ∃ ending ∈ lineEndings, DropsLine source run ending := by
  intro hall
  let run := placeTokens 0 returnAtEndTokens
  obtain ⟨ending, hending, hdrops⟩ := hall {} returnAtEnd returnAtEndTokens (by decide +kernel)
    run (by decide +kernel) (by decide)
  have hreturn : DropsLine returnAtEnd run ['\r'] := by
    refine ⟨by decide, by decide, ?_⟩
    rintro p ⟨⟩
    exact ⟨[], rfl, by decide⟩
  exact hdrops.not_return (List.cons_ne_nil _ _) hending hreturn

end DocTemplate
