import DocTemplate.Engine
import DocTemplate.Proofs.Node.Block
import DocTemplate.Proofs.Token.Statement

/-!
# Dashes inside the delimiters of a statement

A dash directly inside a delimiter of a statement has no meaning. A path may end with a dash as
well, and then the statement reads the path that is written only if a dash of its own stands inside
the closer: without one, the last dash of the path is taken for it.
-/

namespace DocTemplate

open Fence Text

/-! ## Statements side by side -/

/-- What stands between the delimiters of a statement on one line. -/
structure IsInner (s : Settings) (inner : Text) (k : Keyword) (content : Text) : Prop where
  /-- It does not close the tag. -/
  mark : '%' ∉ inner
  /-- It does not break the line. -/
  line : '\n' ∉ inner
  /-- It is read as a statement. -/
  reading : Construct.reading s ⟨[], .statement, inner, false⟩ = .tag (.statement k) content

/-- A statement as it is written. -/
def statementAround (inner : Text) : Text :=
  Delimiter.statement.opener ++ inner ++ Delimiter.statement.closer

/-- A statement at the start of an unfenced line is the first construct. -/
theorem Cut.ofFlagged_statementAround {suppress : Bool} {flags : List Bool}
    (hflags : flags.headD false = false) {inner : Text} (hmark : '%' ∉ inner) (hline : '\n' ∉ inner)
    {rest : Text} {cut : Cut} (hrest : ofFlagged suppress flags rest = .ok cut) :
    ofFlagged suppress flags (statementAround inner ++ rest) =
      .ok ⟨⟨[], .statement, inner, false⟩ :: cut.constructs, cut.tail⟩ := by
  have hsource : statementAround inner ++ rest =
      '{' :: '%' :: (inner ++ '%' :: '}' :: rest) := by
    simp [statementAround, Delimiter.opener, Delimiter.mark, Delimiter.closer,
      Delimiter.closingMark]
  have hopen : findOpening suppress flags (statementAround inner ++ rest) =
      some ⟨[], .statement, flags, inner ++ '%' :: '}' :: rest⟩ := by
    have hunfenced : (suppress && flags.headD false) = false := by rw [hflags, Bool.and_false]
    rw [hsource, findOpening]
    simp only [Delimiter.ofOpener?, if_true, hunfenced, if_false, Bool.false_eq_true]
  have hclose := splitAtPair_of_not_mem (b := '}') hmark rest
  have hdrop : flags.drop (inner.count '\n') = flags := by
    rw [List.count_eq_zero.mpr hline, List.drop_zero]
  rw [ofFlagged_of_closed hopen hclose, hdrop, hrest, hflags]

/-- Two statements that have a line for themselves are scanned into two isolated tags. -/
theorem scan_statementAround_append {s : Settings} {inner inner' content content' : Text}
    {k k' : Keyword} (h : IsInner s inner k content) (h' : IsInner s inner' k' content') :
    scan s (statementAround inner ++ statementAround inner') =
      .ok [.tag ⟨.statement k, content, [], statementAround inner, [], true, false⟩,
        .tag ⟨.statement k', content', [], statementAround inner', [], true, false⟩] := by
  have hraw {inner : Text} (hline : '\n' ∉ inner) :
      ∀ c ∈ statementAround inner, (c == '\n') = false := by
    intro c hc
    rw [beq_eq_false_iff_ne]
    rintro rfl
    simp [statementAround, Delimiter.opener, Delimiter.mark, Delimiter.closer,
      Delimiter.closingMark, hline] at hc
  have hflags : lineFlags (statementAround inner ++ statementAround inner') = [false] := by
    have hlines : lines (statementAround inner ++ statementAround inner') =
        [statementAround inner ++ statementAround inner'] := by
      rw [lines, splitOn, splitWhere_eq_splitOnP]
      apply List.splitOnP_eq_singleton
      exact List.forall_mem_append.mpr ⟨hraw h.line, hraw h'.line⟩
    rw [lineFlags, hlines]
    rfl
  have hend (suppress : Bool) : Cut.ofFlagged suppress [false] [] = .ok ⟨[], []⟩ :=
    Cut.ofFlagged_of_none rfl
  have hback := Cut.ofFlagged_statementAround rfl h'.mark h'.line (hend (!s.conditionsInCode))
  rw [List.append_nil] at hback
  have hcut := Cut.ofFlagged_statementAround rfl h.mark h.line hback
  refine scan_eq_ok_iff.mpr ⟨_, by rw [Cut.ofSource, hflags, hcut], ?_⟩
  simp only [Cut.tokens, collectItems, h.reading, h'.reading]
  rfl

/-! ## Words between dashes -/

/-- A dash or nothing. -/
def dash (present : Bool) : Text := if present then ['-'] else []

/-- What stands between the delimiters of a statement with dashes directly inside the opener or the
closer. -/
def dashedInner (front back : Bool) (content : Text) : Text :=
  dash front ++ ' ' :: content ++ ' ' :: dash back

/-- What a dash inside the closer protects: without it, a dash at the end is taken for it. -/
def undashed (back : Bool) (t : Text) : Text := if back then t else dropSuffix ['-'] t

private theorem isSuffixOf_dash_iff {t : Text} :
    (['-'] : Text).isSuffixOf t = true ↔ t.getLast? = some '-' := by
  rw [List.isSuffixOf_iff_suffix, List.singleton_suffix_iff_getLast?_eq_some]

private theorem dropSuffix_append_dash (t : Text) : dropSuffix ['-'] (t ++ ['-']) = t := by
  have hsuffix : (['-'] : Text).isSuffixOf (t ++ ['-']) = true :=
    isSuffixOf_dash_iff.mpr List.getLast?_concat
  exact List.append_cancel_right (dropSuffix_append hsuffix)

/-- A dash at the end of a text is taken off whatever stands in front of the text. -/
theorem dropSuffix_dash_append {p : Text} (hp : p ≠ []) (t : Text) :
    dropSuffix ['-'] (t ++ p) = t ++ dropSuffix ['-'] p := by
  by_cases hsuffix : (['-'] : Text).isSuffixOf p = true
  · exact dropSuffix_append_of_suffix hsuffix t
  · have hwhole : ¬ (['-'] : Text).isSuffixOf (t ++ p) = true := by
      have hlast := List.getLast?_eq_some_getLast hp
      rwa [isSuffixOf_dash_iff, List.getLast?_append, hlast, Option.some_or, ← hlast,
        ← isSuffixOf_dash_iff]
    rw [dropSuffix, dropSuffix, if_neg hsuffix, if_neg hwhole]

private theorem statementContent_of_dash {inner rest : Text} (h : trim inner = '-' :: rest) :
    statementContent inner = trim (dropSuffix ['-'] rest) := by
  simp only [statementContent, h]

private theorem statementContent_of_head? {inner : Text} (h : (trim inner).head? ≠ some '-') :
    statementContent inner = trim (dropSuffix ['-'] (trim inner)) := by
  rw [statementContent]
  split
  · rename_i hrest
    exact absurd (congrArg List.head? hrest) h
  · rfl

/-- Behind a content, a dash inside the closer is kept by trimming, and only a blank follows what is
kept. -/
private theorem exists_closed {content : Text} (hne : content ≠ [])
    (hlast : ∀ c ∈ content.getLast?, isBlank c = false) (back : Bool) :
    ∃ closed blanks, content ++ ' ' :: dash back = closed ++ blanks ∧ blanks.all isBlank = true ∧
      closed.head? = content.head? ∧ (∀ c ∈ closed.getLast?, isBlank c = false) ∧
      ∀ t, words (dropSuffix ['-'] (t ++ closed)) = words (t ++ undashed back content) := by
  have hdash : ∀ c ∈ some '-', isBlank c = false := by simp; decide
  cases back with
  | false =>
    refine ⟨content, [' '], rfl, rfl, rfl, hlast, fun t => ?_⟩
    rw [dropSuffix_dash_append hne]
    rfl
  | true =>
    refine ⟨content ++ [' ', '-'], [], (List.append_nil _).symm, rfl, ?_, ?_, fun t => ?_⟩
    · obtain ⟨c, rest, rfl⟩ := List.exists_cons_of_ne_nil hne
      rfl
    · rw [List.getLast?_append]
      exact hdash
    · have hdrop := dropSuffix_append_dash (t ++ content ++ [' '])
      have hblank := words_append_cons (c := ' ') (by decide) (t ++ content) []
      simp only [List.append_assoc, List.singleton_append] at hdrop hblank
      rw [hdrop, hblank]
      exact List.append_nil _

/-- A statement says the words between its dashes. -/
theorem words_statementContent_dashedInner {content : Text} (hne : content ≠ [])
    (hhead : ∀ c ∈ content.head?, isBlank c = false ∧ c ≠ '-')
    (hlast : ∀ c ∈ content.getLast?, isBlank c = false) (front back : Bool) :
    words (statementContent (dashedInner front back content)) = words (undashed back content) := by
  obtain ⟨closed, blanks, hclosed, hblanks, hfirst, hvisible, hwords⟩ :=
    exists_closed hne hlast back
  have hinner : dashedInner front back content = dash front ++ ' ' :: closed ++ blanks := by
    rw [List.append_assoc, List.cons_append, ← hclosed]
    simp [dashedInner]
  cases front with
  | false =>
    have htrim : trim (dashedInner false back content) = closed := by
      rw [hinner]
      have hblank : ([' '] : Text).all isBlank = true := rfl
      exact trim_between hblank hblanks (fun c hc => (hhead c (hfirst ▸ hc)).1) hvisible
    have hdash : (trim (dashedInner false back content)).head? ≠ some '-' := by
      rw [htrim, hfirst]
      exact fun hc => (hhead '-' hc).2 rfl
    rw [statementContent_of_head? hdash, words_trim, htrim]
    exact hwords []
  | true =>
    have htrim : trim (dashedInner true back content) = '-' :: ' ' :: closed := by
      rw [hinner]
      have hne' : closed ≠ [] := by
        rintro rfl
        exact hne (List.head?_eq_none_iff.mp hfirst.symm)
      have hlast' : ('-' :: ' ' :: closed).getLast? = closed.getLast? := by
        rw [List.getLast?_cons_cons, List.getLast?_cons_of_ne_nil hne']
      have hblank : ([] : Text).all isBlank = true := rfl
      exact trim_between hblank hblanks (by simp; decide) (hlast' ▸ hvisible)
    rw [statementContent_of_dash htrim, words_trim]
    exact (hwords [' ']).trans (words_append_cons (by decide) [] _)

/-! ## Statements that end with a path -/

/-- The words of a statement and the path behind them. -/
def withPath (ws : List Text) (p : Text) : Text := [' '].intercalate ws ++ ' ' :: p

section WithPath

variable {k : Keyword} {ws : List Text} (h : k.IsSaidBy ws) {p : Text}
  (hp : p ≠ [] ∧ ∀ c ∈ p, isBlank c = false ∧ c ≠ '%')

include h hp

/-- A statement reads its words as they are, and the path without the dash that is taken off. -/
theorem words_statementContent_withPath (front back : Bool) :
    words (statementContent (dashedInner front back (withPath ws p))) =
      ws ++ words (undashed back p) := by
  have hhead : ∀ c ∈ (withPath ws p).head?, isBlank c = false ∧ c ≠ '-' := by
    rw [withPath, List.head?_append, h.head?_eq]
    cases k <;> simp [Keyword.toText] <;> decide
  have hlast : ∀ c ∈ (withPath ws p).getLast?, isBlank c = false := by
    intro c hc
    rw [withPath, List.getLast?_append, List.getLast?_cons_of_ne_nil hp.1,
      List.getLast?_eq_some_getLast hp.1, Option.some_or] at hc
    cases hc
    exact (hp.2 _ (List.getLast_mem hp.1)).1
  have hundashed : undashed back (withPath ws p) = withPath ws (undashed back p) := by
    cases back with
    | true => rfl
    | false =>
      have hdrop := dropSuffix_dash_append hp.1 ([' '].intercalate ws ++ [' '])
      simpa [undashed, withPath] using hdrop
  rw [words_statementContent_dashedInner (by simp [withPath]) hhead hlast, hundashed, withPath,
    words_append_cons (by decide), h.words_eq]

/-- What stands between the delimiters is read as a statement of its keyword. -/
theorem isInner_withPath {s : Settings} (hs : s.enables (.statement k) = true)
    (front back : Bool) :
    IsInner s (dashedInner front back (withPath ws p)) k
      (statementContent (dashedInner front back (withPath ws p))) := by
  have hnot {c : Char} (hc : c = '\n' ∨ c = '%') : c ∉ dashedInner front back (withPath ws p) := by
    have hwords := h.not_mem hc
    have hpath : c ∉ p := by
      intro hmem
      obtain ⟨hvisible, hmark⟩ := hp.2 c hmem
      rcases hc with rfl | rfl
      · exact absurd hvisible (by decide)
      · exact hmark rfl
    have hblank : c ≠ ' ' ∧ c ≠ '-' := by rcases hc with rfl | rfl <;> decide
    cases front <;> cases back <;> simp [dashedInner, dash, withPath, hwords, hpath, hblank]
  have hword : (words (statementContent (dashedInner front back (withPath ws p)))).head?.bind
      Keyword.ofText? = some k := by
    rw [words_statementContent_withPath h hp, List.head?_append, h.first]
    exact Keyword.ofText?_eq_some_iff.mpr rfl
  exact ⟨hnot (Or.inr rfl), hnot (Or.inl rfl), by
    simp only [Construct.reading, hword, hs, if_true]⟩

end WithPath

/-- The words of a statement between blanks are read as this statement. -/
theorem Keyword.IsSaidBy.isInner {s : Settings} {k : Keyword} {ws : List Text} (h : k.IsSaidBy ws)
    (hs : s.enables (.statement k) = true) :
    IsInner s (statementInner ws) k ([' '].intercalate ws) := by
  have hword : (words ([' '].intercalate ws)).head?.bind Keyword.ofText? = some k := by
    rw [h.words_eq, h.first]
    exact Keyword.ofText?_eq_some_iff.mpr rfl
  refine ⟨?_, ?_, ?_⟩
  · simp [statementInner, h.not_mem (Or.inr rfl)]
  · simp [statementInner, h.not_mem (Or.inl rfl)]
  · simp only [Construct.reading, h.statementContent_eq, hword, hs, if_true]

/-- A block with nothing in it, on one line: its opening statement ends with a path, perhaps between
dashes. -/
def emptyBlock (front back : Bool) (ws : List Text) (p : Text) (closing : Keyword) : Text :=
  statementAround (dashedInner front back (withPath ws p)) ++ statementRaw [closing.toText]

example : emptyBlock true false ["if".toList] "a.b".toList .endCondition =
    "{%- if a.b %}{% endif %}".toList := rfl

/-- What a block with nothing in it leads to: its node, or the failure of an opening statement that
names none. -/
def emptyOutcome (opening : Keyword) (raw : Text) : Option Node → Except Failure (List Node)
  | some node => .ok [node]
  | none => .error ⟨.start, .misplaced raw (.malformed opening)⟩

/-! ## What is read -/

section Reading

variable {p : Text} (hp : p ≠ [] ∧ ∀ c ∈ p, isBlank c = false ∧ c ≠ '%') (back : Bool)

include hp

/-- The path that is read is at most one word. -/
theorem words_undashed :
    undashed back p = [] ∧ words (undashed back p) = [] ∨
      words (undashed back p) = [undashed back p] := by
  by_cases hnil : undashed back p = []
  · exact Or.inl ⟨hnil, by rw [hnil]; rfl⟩
  · refine Or.inr (words_of_visible hnil fun c hc => (hp.2 c ?_).1)
    cases back with
    | true => exact hc
    | false =>
      have hundashed : undashed false p = dropSuffix ['-'] p := rfl
      rw [hundashed, dropSuffix] at hc
      split at hc
      · exact List.mem_of_mem_take hc
      · exact hc

/-- A condition reads the path without the dash that is taken off. -/
theorem conditionOfText?_dashed (front : Bool) :
    conditionOfText? (statementContent (dashedInner front back
        (withPath [Keyword.condition.toText] p))) = Path.ofText? (undashed back p) := by
  rw [conditionOfText?, words_statementContent_withPath Keyword.condition.isSaidBy_singleton hp]
  rcases words_undashed hp back with ⟨hnil, hwords⟩ | hwords
  · rw [hwords, hnil]
    rfl
  · rw [hwords]
    rfl

/-- The words of a loop in front of its path. -/
def loopWords (name : Text) : List Text := [Keyword.loop.toText, name, ['i', 'n']]

omit hp in
/-- The words of a loop in front of its path make a statement of a loop. -/
theorem isSaidBy_loopWords {name : Text} (hname : isIdentifier name = true) :
    Keyword.loop.IsSaidBy (loopWords name) where
  first := rfl
  word := by
    have hlast : (Path.ofName ['x'] rfl).toText.getLast? ≠ some '-' := by decide
    have hhead : Keyword.loop.IsSaidBy (LoopHead.words ⟨name, Path.ofName ['x'] rfl⟩) :=
      LoopHead.isSaidBy_words hname hlast
    intro w hw
    exact hhead.word w (List.mem_append_left [Path.toText _] hw)
  last := by simp [loopWords]

/-- A loop reads the path without the dash that is taken off. -/
theorem LoopHead.ofText?_dashed {name : Text} (hname : isIdentifier name = true) (front : Bool) :
    LoopHead.ofText? (statementContent (dashedInner front back (withPath (loopWords name) p))) =
      (Path.ofText? (undashed back p)).map fun q => ⟨name, q⟩ := by
  rw [LoopHead.ofText?, words_statementContent_withPath (isSaidBy_loopWords hname) hp]
  rcases words_undashed hp back with ⟨hnil, hwords⟩ | hwords
  · rw [hwords, hnil]
    rfl
  · rw [hwords]
    exact if_pos ⟨rfl, hname, rfl⟩

end Reading

/-- The text of a path is read as this path unless the dash at its end is taken off. -/
theorem Path.ofText?_undashed {p : Text} {path : Path} (hp : Path.ofText? p = some path)
    (back : Bool) :
    Path.ofText? (undashed back p) = some path ↔ back = true ∨ p.getLast? ≠ some '-' := by
  cases back with
  | true => simpa [undashed] using hp
  | false =>
    by_cases hdash : p.getLast? = some '-'
    · have hdrop := dropSuffix_append (isSuffixOf_dash_iff.mpr hdash)
      have hother : ¬ Path.ofText? (undashed false p) = some path := by
        intro hread
        have hsame := (Path.toText_of_ofText? hread).symm.trans (Path.toText_of_ofText? hp)
        have hundashed : undashed false p = dropSuffix ['-'] p := rfl
        rw [← hundashed, hsame] at hdrop
        simp at hdrop
      simp [hother, hdash]
    · have hsame : undashed false p = p := by
        have hundashed : undashed false p = dropSuffix ['-'] p := rfl
        rw [hundashed, dropSuffix, if_neg (mt isSuffixOf_dash_iff.mp hdash)]
      simp [hsame, hp, hdash]

/-! ## The trees of empty blocks -/

open Builder

/-- The tree of a condition with nothing in it. -/
theorem ofTokens_emptyCondition {opening closing : Tag}
    (hopen : opening.kind = .statement .condition) (hlead : opening.lead = [])
    (hclose : closing.kind = .statement .endCondition)
    (hcontent : closing.content = Keyword.endCondition.toText) :
    Node.ofTokens [.tag opening, .tag closing] =
      emptyOutcome .condition opening.raw
        ((conditionOfText? opening.content).map fun condition => .conditional condition [] []) := by
  rw [Node.ofTokens]
  cases hread : conditionOfText? opening.content with
  | some condition =>
    rw [acceptAll_cons_of_obeys hopen (.openCondition hread), openBlock,
      acceptAll_cons_of_obeys hclose (.closeConsequent hcontent)]
    rfl
  | none =>
    have hrefusal : Keyword.condition.refusal? opening.content start.innermost? =
        some (.malformed .condition) := by
      rw [Keyword.refusal?, hread]
      rfl
    rw [acceptAll, accept_eq_error_iff.mpr (.statement hopen hrefusal), hlead]
    rfl

/-- The tree of a loop with nothing in it. -/
theorem ofTokens_emptyLoop {opening closing : Tag} (hopen : opening.kind = .statement .loop)
    (hisolated : opening.isolated = true) (hlead : opening.lead = [])
    (hclose : closing.kind = .statement .endLoop)
    (hcontent : closing.content = Keyword.endLoop.toText) :
    Node.ofTokens [.tag opening, .tag closing] =
      emptyOutcome .loop opening.raw
        ((LoopHead.ofText? opening.content).map fun head => .loop head .block []) := by
  rw [Node.ofTokens]
  cases hread : LoopHead.ofText? opening.content with
  | some head =>
    rw [acceptAll_cons_of_obeys hopen (.openLoop hread), hisolated, openBlock,
      acceptAll_cons_of_obeys hclose (.closeLoop hcontent)]
    rfl
  | none =>
    have hrefusal : Keyword.loop.refusal? opening.content start.innermost? =
        some (.malformed .loop) := by
      rw [Keyword.refusal?, hread]
      rfl
    rw [acceptAll, accept_eq_error_iff.mpr (.statement hopen hrefusal), hlead]
    rfl

/-- The tokens of a block with nothing in it are its two statements. -/
theorem scan_emptyBlock (closing : Keyword) {s : Settings} {k : Keyword} {ws : List Text}
    (h : k.IsSaidBy ws) (hs : s.enables (.statement k) = true)
    (hs' : s.enables (.statement closing) = true) {p : Text}
    (hp : p ≠ [] ∧ ∀ c ∈ p, isBlank c = false ∧ c ≠ '%') (front back : Bool) :
    scan s (emptyBlock front back ws p closing) =
      .ok [.tag ⟨.statement k, statementContent (dashedInner front back (withPath ws p)), [],
          statementAround (dashedInner front back (withPath ws p)), [], true, false⟩,
        .tag ⟨.statement closing, closing.toText, [], statementRaw [closing.toText], [], true,
          false⟩] := by
  have hclosing := closing.isSaidBy_singleton.isInner hs'
  rw [List.intercalate_singleton] at hclosing
  exact scan_statementAround_append (isInner_withPath h hp hs front back) hclosing

namespace Engine

/-- An opening statement reads its path as it is written exactly if a dash of its own stands inside
the closer or the path does not end with one. Any other path loses the dash at its end, and if what
is left is no path, the statement is malformed. -/
theorem parseNodes_emptyBlock {s : Settings} (hcycles : s.cycles = true)
    (hconditions : s.conditions = true) {p : Text} {path : Path} (hp : Path.ofText? p = some path)
    {name : Text} (hname : isIdentifier name = true) (front back : Bool) :
    parseNodes s (emptyBlock front back [Keyword.condition.toText] p .endCondition) =
        emptyOutcome .condition
          (statementAround (dashedInner front back (withPath [Keyword.condition.toText] p)))
          ((Path.ofText? (undashed back p)).map fun q => .conditional q [] []) ∧
      parseNodes s (emptyBlock front back (loopWords name) p .endLoop) =
        emptyOutcome .loop (statementAround (dashedInner front back (withPath (loopWords name) p)))
          ((Path.ofText? (undashed back p)).map fun q => .loop ⟨name, q⟩ .block []) ∧
      (Path.ofText? (undashed back p) = some path ↔ back = true ∨ p.getLast? ≠ some '-') := by
  have hword : p ≠ [] ∧ ∀ c ∈ p, isBlank c = false ∧ c ≠ '%' := by
    rw [← Path.toText_of_ofText? hp]
    exact isWord_of_all path.isWord_toText.1 fun c hc => Path.mem_toText hc
  refine ⟨?_, ?_, Path.ofText?_undashed hp back⟩
  · have hscan := scan_emptyBlock .endCondition Keyword.condition.isSaidBy_singleton
      hconditions hconditions hword front back
    rw [parseNodes, hscan]
    refine (ofTokens_emptyCondition rfl rfl rfl rfl).trans ?_
    rw [conditionOfText?_dashed hword]
  · have hscan := scan_emptyBlock .endLoop (isSaidBy_loopWords hname) hcycles hcycles
      hword front back
    rw [parseNodes, hscan]
    refine (ofTokens_emptyLoop rfl rfl rfl rfl rfl).trans ?_
    rw [LoopHead.ofText?_dashed hword back hname, Option.map_map]
    rfl

/-- A path that ends with a dash, with no other dash inside the closer. -/
theorem parseNodes_emptyBlock_dash_end :
    Path.ofText? ['a', '-'] = some (Path.ofName ['a', '-'] rfl) ∧ isIdentifier ['x'] = true ∧
      parseNodes {} (emptyBlock false false [Keyword.condition.toText] ['a', '-'] .endCondition) =
        .ok [.conditional (Path.ofName ['a'] rfl) [] []] ∧
      parseNodes {} (emptyBlock false false (loopWords ['x']) ['a', '-'] .endLoop) =
        .ok [.loop ⟨['x'], Path.ofName ['a'] rfl⟩ .block []] :=
  have hname : isIdentifier ['x'] = true := rfl
  have h := parseNodes_emptyBlock (s := {}) rfl rfl (p := ['a', '-']) rfl hname false false
  ⟨rfl, hname, h.1, h.2.1⟩

/-- The condition on the path `a-` is a condition on another path. -/
theorem parseNodes_condition_dash_end :
    parseNodes {} "{% if a- %}{% endif %}".toList ≠
      .ok [.conditional (Path.ofName ['a', '-'] rfl) [] []] := by
  have hscan : scan {} "{% if a- %}{% endif %}".toList =
      .ok [.tag ⟨.statement .condition, "if a".toList, [], "{% if a- %}".toList, [], true, false⟩,
        .tag ⟨.statement .endCondition, "endif".toList, [], "{% endif %}".toList, [], true,
          false⟩] := by decide +kernel
  have hread : parseNodes {} "{% if a- %}{% endif %}".toList =
      .ok [.conditional (Path.ofName ['a'] rfl) [] []] := by
    rw [parseNodes, hscan]
    rfl
  rw [hread]
  intro hsame
  cases hsame

end Engine

end DocTemplate
