import DocTemplate.Proofs.Expression
import DocTemplate.Proofs.Location
import DocTemplate.Proofs.Token.Append

/-!
# Statements on lines of their own

A line that holds nothing but a statement, its words one blank apart, is scanned into one tag that
takes the whole line along. Such a line opens no fence, so it stands in front of any source without
touching what that is scanned into.
-/

namespace DocTemplate

open Fence Text

/-- What stands between the delimiters of the statement of some words. -/
def statementInner (ws : List Text) : Text := ' ' :: ([' '].intercalate ws ++ [' '])

/-- The statement of some words, as it is written. -/
def statementRaw (ws : List Text) : Text :=
  Delimiter.statement.opener ++ statementInner ws ++ Delimiter.statement.closer

/-- The statement of some words on a line of its own. -/
def statementLine (ws : List Text) : Text := statementRaw ws ++ ['\n']

example : statementLine [['i', 'f'], ['x']] = "{% if x %}\n".toList := rfl

/-- The tag of a statement on a line of its own. -/
def statementTag (k : Keyword) (ws : List Text) : Tag :=
  ⟨.statement k, [' '].intercalate ws, [], statementRaw ws, ['\n'], true, false⟩

/-- The words make a statement of the keyword: they start with it, each of them is a word that does
not close the tag, and the last one does not end with a dash, which would be dropped. -/
structure Keyword.IsSaidBy (k : Keyword) (ws : List Text) : Prop where
  /-- The keyword comes first. -/
  first : ws.head? = some k.toText
  /-- All of them are words without a percent sign. -/
  word : ∀ w ∈ ws, w ≠ [] ∧ ∀ c ∈ w, isBlank c = false ∧ c ≠ '%'
  /-- The last one does not end with a dash. -/
  last : ∀ w ∈ ws.getLast?, w.getLast? ≠ some '-'

namespace Keyword.IsSaidBy

variable {k : Keyword} {ws : List Text} (h : k.IsSaidBy ws)

include h

/-- The words are the words of the statement. -/
theorem words_eq : words ([' '].intercalate ws) = ws :=
  words_intercalate fun w hw => ⟨(h.word w hw).1, fun c hc => ((h.word w hw).2 c hc).1⟩

/-- The statement neither breaks its line nor closes its tag. -/
theorem not_mem {c : Char} (hc : c = '\n' ∨ c = '%') : c ∉ [' '].intercalate ws := by
  intro hmem
  rcases mem_intercalate hmem with rfl | ⟨w, hw, hmem⟩
  · rcases hc with hc | hc <;> cases hc
  · obtain ⟨hvisible, hmark⟩ := (h.word w hw).2 c hmem
    rcases hc with rfl | rfl
    · exact absurd hvisible (by decide)
    · exact hmark rfl

/-- The statement starts with the first letter of its keyword. -/
theorem head?_eq : ([' '].intercalate ws).head? = k.toText.head? := by
  obtain ⟨rest, rfl⟩ : ∃ rest, ws = k.toText :: rest := by
    cases ws with
    | nil => cases h.first
    | cons w rest => exact ⟨rest, congrArg (· :: rest) (Option.some.inj h.first)⟩
  exact head?_intercalate (h.word k.toText List.mem_cons_self).1 rest

/-- The statement ends with a visible character that is no dash. -/
theorem getLast?_visible :
    ∀ c ∈ ([' '].intercalate ws).getLast?, isBlank c = false ∧ c ≠ '-' := by
  have hne : ws ≠ [] := by
    rintro rfl
    cases h.first
  have hlast := List.getLast?_eq_some_getLast hne
  rw [getLast?_intercalate (fun w hw => (h.word w hw).1) hlast]
  intro c hc
  refine ⟨((h.word _ (List.getLast_mem hne)).2 c (List.mem_of_getLast? hc)).1, ?_⟩
  rintro rfl
  exact h.last _ hlast hc

/-- Between its delimiters the statement says its words. -/
theorem statementContent_eq :
    statementContent (statementInner ws) = [' '].intercalate ws := by
  have hfirst : ∀ c ∈ ([' '].intercalate ws).head?, isBlank c = false ∧ c ≠ '-' := by
    rw [h.head?_eq]
    cases k <;> simp [Keyword.toText] <;> decide
  have hlast := h.getLast?_visible
  rw [statementInner]
  generalize [' '].intercalate ws = content at hfirst hlast
  have htrim (front back : Text) (hfront : front.all isBlank = true)
      (hback : back.all isBlank = true) : trim (front ++ content ++ back) = content :=
    trim_between hfront hback (fun c hc => (hfirst c hc).1) fun c hc => (hlast c hc).1
  have hpadded : trim (' ' :: (content ++ [' '])) = content := htrim [' '] [' '] rfl rfl
  have hplain : trim content = content := by simpa using htrim [] [] rfl rfl
  have hdash : (['-'] : Text).isSuffixOf content = false := by
    rw [Bool.eq_false_iff]
    intro hsuffix
    obtain ⟨front, hfront⟩ := List.isSuffixOf_iff_suffix.mp hsuffix
    exact (hlast '-' (by rw [← hfront, List.getLast?_append]; rfl)).2 rfl
  have hundashed : dropSuffix ['-'] content = content := by
    rw [dropSuffix, hdash, if_neg (by simp)]
  rw [statementContent, hpadded]
  split
  · exact absurd rfl (hfirst '-' rfl).2
  · rw [hundashed, hplain]

end Keyword.IsSaidBy

/-- A text of segment characters and dots is a word without a percent sign. -/
theorem isWord_of_all {w : Text} (hne : w ≠ [])
    (h : ∀ c ∈ w, c = '.' ∨ isSegmentChar c = true) :
    w ≠ [] ∧ ∀ c ∈ w, isBlank c = false ∧ c ≠ '%' := by
  refine ⟨hne, ?_⟩
  intro c hc
  rcases h c hc with rfl | hsegment
  · decide
  · refine ⟨isBlank_of_isSegmentChar hsegment, ?_⟩
    rintro rfl
    exact absurd hsegment (by decide)

private theorem isWord_toText (k : Keyword) :
    k.toText ≠ [] ∧ ∀ c ∈ k.toText, isBlank c = false ∧ c ≠ '%' := by
  have hne : k.toText ≠ [] := by cases k <;> exact List.cons_ne_nil _ _
  have hall : k.toText.all isSegmentChar = true := by cases k <;> rfl
  exact isWord_of_all hne fun c hc => Or.inr (List.all_eq_true.mp hall c hc)

/-- A keyword alone is said by itself. -/
theorem Keyword.isSaidBy_singleton (k : Keyword) : k.IsSaidBy [k.toText] where
  first := rfl
  word := by simpa using isWord_toText k
  last := by cases k <;> decide

/-- A loop is said by the words of its head if the path does not end with a dash. -/
theorem LoopHead.isSaidBy_words {head : LoopHead} (hname : isIdentifier head.name = true)
    (hdash : head.iterable.toText.getLast? ≠ some '-') : Keyword.loop.IsSaidBy head.words where
  first := rfl
  word := by
    have hvariable : head.name ≠ [] := by
      intro hnil
      rw [hnil] at hname
      cases hname
    intro w hw
    simp only [LoopHead.words, List.mem_cons, List.not_mem_nil, or_false] at hw
    rcases hw with rfl | rfl | rfl | rfl
    · exact isWord_toText .loop
    · exact isWord_of_all hvariable fun c hc => Or.inr (isSegmentChar_of_isIdentifier hname c hc)
    · exact isWord_of_all (List.cons_ne_nil _ _) fun c hc => Or.inr (List.all_eq_true.mp rfl c hc)
    · exact isWord_of_all head.iterable.isWord_toText.1 fun c hc => Path.mem_toText hc
  last := by simpa [LoopHead.words] using hdash

/-- A condition is said by its words if the path does not end with a dash. -/
theorem isSaidBy_conditionWords {condition : Path}
    (hdash : condition.toText.getLast? ≠ some '-') :
    Keyword.condition.IsSaidBy (conditionWords condition) where
  first := rfl
  word := by
    intro w hw
    simp only [conditionWords, List.mem_cons, List.not_mem_nil, or_false] at hw
    rcases hw with rfl | rfl
    · exact isWord_toText .condition
    · exact isWord_of_all condition.isWord_toText.1 fun c hc => Path.mem_toText hc
  last := by simpa [conditionWords] using hdash

/-! ## Scanning -/

/-- The first pair behind a part without its first character is cut at. -/
theorem splitAtPair_of_not_mem {a b : Char} {s : Text} (h : a ∉ s) (rest : Text) :
    splitAtPair a b (s ++ a :: b :: rest) = some (s, rest) := by
  induction s with
  | nil => rw [List.nil_append, splitAtPair, if_pos ⟨rfl, rfl⟩]
  | cons c s ih =>
    have hc : c ≠ a := fun heq => h (heq ▸ List.mem_cons_self)
    have hs : a ∉ s := fun hmem => h (List.mem_cons_of_mem c hmem)
    have hrest := ih hs
    obtain ⟨d, t, ht⟩ := List.exists_cons_of_ne_nil (l := s ++ a :: b :: rest) (by simp)
    rw [ht] at hrest
    rw [List.cons_append, ht, splitAtPair, if_neg (fun hpair => hc hpair.1), hrest]
    rfl

variable {k : Keyword} {ws : List Text}

/-- A statement on a line of its own ends its line. -/
theorem endsLine_statementLine (ws : List Text) : EndsLine (statementLine ws) :=
  Or.inr List.getLast?_concat

/-- A statement on a line of its own is one line in front of the end. -/
theorem lines_statementLine (h : k.IsSaidBy ws) :
    lines (statementLine ws) = [statementRaw ws, []] := by
  have hraw : ∀ c ∈ statementRaw ws, (c == '\n') = false := by
    intro c hc
    rw [beq_eq_false_iff_ne]
    rintro rfl
    have hnot := h.not_mem (Or.inl rfl)
    simp [statementRaw, statementInner, Delimiter.opener, Delimiter.mark, Delimiter.closer,
      Delimiter.closingMark, hnot] at hc
  exact splitWhere_append_cons hraw rfl []

/-- A statement on a line of its own holds one line feed. -/
theorem count_statementLine (h : k.IsSaidBy ws) : (statementLine ws).count '\n' = 1 := by
  have hlength := length_lines (statementLine ws)
  rw [lines_statementLine h] at hlength
  exact (Nat.succ.inj hlength).symm

/-- A statement on a line of its own opens no fence. -/
theorem countP_isDelimiter_statementLine (h : k.IsSaidBy ws) :
    (lines (statementLine ws)).countP isDelimiter = 0 := by
  rw [lines_statementLine h]
  rfl

/-- A statement on a line of its own leads to the start of the next line. -/
theorem after_statementLine (h : k.IsSaidBy ws) {l : Location} (hl : l.column = 1) :
    l.after (statementLine ws) = l.down 1 := by
  rw [Location.after_of_endsLine (endsLine_statementLine ws) hl, count_statementLine h]

/-- A statement on a line of its own is cut into one construct. -/
theorem cut_statementLine (h : k.IsSaidBy ws) (suppress : Bool) :
    Cut.ofSource suppress (statementLine ws) =
      .ok ⟨[⟨[], .statement, statementInner ws, false⟩], ['\n']⟩ := by
  have hflags : lineFlags (statementLine ws) = [false, false] := by
    rw [lineFlags, lines_statementLine h]
    rfl
  have hline : statementLine ws =
      '{' :: '%' :: (statementInner ws ++ '%' :: '}' :: ['\n']) := by
    simp [statementLine, statementRaw, Delimiter.opener, Delimiter.mark, Delimiter.closer,
      Delimiter.closingMark]
  have hopen : findOpening suppress [false, false] (statementLine ws) =
      some ⟨[], .statement, [false, false], statementInner ws ++ '%' :: '}' :: ['\n']⟩ := by
    rw [hline]
    simp [findOpening, Delimiter.ofOpener?]
  have hinner : '%' ∉ statementInner ws := by
    have hnot := h.not_mem (Or.inr rfl)
    simp [statementInner, hnot]
  have hclose := splitAtPair_of_not_mem (b := '}') hinner ['\n']
  have hrest (flags : List Bool) : Cut.ofFlagged suppress flags ['\n'] = .ok ⟨[], ['\n']⟩ :=
    Cut.ofFlagged_of_none rfl
  rw [Cut.ofSource, hflags, Cut.ofFlagged_of_closed hopen hclose, hrest]
  rfl

/-- A statement on a line of its own is scanned into its tag. -/
theorem scan_statementLine {s : Settings} (h : k.IsSaidBy ws)
    (hs : s.enables (.statement k) = true) :
    scan s (statementLine ws) = .ok [.tag (statementTag k ws)] := by
  have hword : (words ([' '].intercalate ws)).head?.bind Keyword.ofText? = some k := by
    rw [h.words_eq, h.first]
    exact Keyword.ofText?_eq_some_iff.mpr rfl
  have hreading : Construct.reading s ⟨[], .statement, statementInner ws, false⟩ =
      .tag (.statement k) ([' '].intercalate ws) := by
    simp only [Construct.reading, h.statementContent_eq, hword, hs, if_true]
  refine scan_eq_ok_iff.mpr ⟨_, cut_statementLine h (!s.conditionsInCode), ?_⟩
  simp only [Cut.tokens, collectItems, hreading]
  rfl

/-- A statement on a line of its own may be put in front of a source. -/
theorem scansAlike_statementLine_append {s : Settings} (h : k.IsSaidBy ws)
    (hs : s.enables (.statement k) = true) {rest : Text} {tokens : List Token}
    (hrest : ScansAlike s rest tokens) :
    ScansAlike s (statementLine ws ++ rest) (.tag (statementTag k ws) :: tokens) := by
  have heven : (lines (statementLine ws)).countP isDelimiter % 2 = 0 := by
    rw [countP_isDelimiter_statementLine h]
  exact hrest.append (endsLine_statementLine ws) heven (scan_statementLine h hs)

end DocTemplate
