import DocTemplate.Expression
import DocTemplate.Proofs.Path
import DocTemplate.Proofs.Text.Blank
import DocTemplate.Tag

/-!
# The words and characters of well-formed expressions

The head of a loop and a condition are known by their words. Every character of an expression but
separators and blanks is a character of one of its parts. A text that can be read as an expression
therefore holds nothing but blanks, segment characters, dots and bars; a backtick is none of these.
-/

namespace DocTemplate

open Text

/-- A statement says all visible characters between its delimiters but dashes. -/
theorem mem_statementContent {c : Char} {inner : Text} (h : c ∈ inner) (hc : isBlank c = false)
    (hdash : c ≠ '-') : c ∈ statementContent inner := by
  have htrimmed := mem_trim h hc
  unfold statementContent
  apply mem_trim _ hc
  apply mem_dropSuffix _ (by simpa using hdash)
  split
  · rename_i rest hrest
    rw [hrest] at htrimmed
    exact (List.mem_cons.mp htrimmed).resolve_left hdash
  · exact htrimmed

/-! ## What expressions hold -/

/-- A character that may stand in an expression. -/
def isExpressionChar (c : Char) : Bool := isBlank c || isSegmentChar c || c == '.' || c == '|'

private theorem isExpressionChar_of_isSegmentChar {c : Char} (h : isSegmentChar c = true) :
    isExpressionChar c = true := by
  simp [isExpressionChar, h]

/-- Identifiers are written with segment characters. -/
theorem isSegmentChar_of_isIdentifier {name : Text} (h : isIdentifier name = true) :
    ∀ c ∈ name, isSegmentChar c = true := by
  cases name with
  | nil => simp
  | cons d name =>
    simp only [isIdentifier, Bool.and_eq_true, Bool.or_eq_true, beq_iff_eq,
      List.all_eq_true] at h
    intro c hc
    rcases List.mem_cons.mp hc with rfl | hc
    · rcases h.1 with halpha | rfl
      · simp [isSegmentChar, Char.isAlphanum, halpha]
      · decide
    · rcases h.2 c hc with halphanum | rfl
      · simp [isSegmentChar, halphanum]
      · decide

/-- A path holds segment characters and dots. -/
theorem Path.isExpressionChar_of_ofText? {t : Text} {p : Path} (h : Path.ofText? t = some p) :
    ∀ c ∈ t, isExpressionChar c = true := by
  intro c hc
  by_cases hdot : c = '.'
  · simp [isExpressionChar, hdot]
  · obtain ⟨piece, hpiece, hmem⟩ :=
      exists_mem_splitWhere (p := (· == '.')) hc (by simpa using hdot)
    have hsegments : p.head :: p.tail = splitOn '.' t := segments_of_ofSegments? h
    have hvalid := p.valid piece (hsegments ▸ hpiece)
    simp only [isSegment, Bool.and_eq_true, List.all_eq_true] at hvalid
    exact isExpressionChar_of_isSegmentChar (hvalid.2 c hmem)

private theorem isExpressionChar_of_words {t : Text}
    (h : ∀ w ∈ words t, ∀ c ∈ w, isExpressionChar c = true) :
    ∀ c ∈ t, isExpressionChar c = true := by
  intro c hc
  cases hblank : isBlank c with
  | true => simp [isExpressionChar, hblank]
  | false =>
    obtain ⟨w, hw, hmem⟩ := exists_mem_words hc hblank
    exact h w hw c hmem

/-- The four words of a loop. -/
theorem LoopHead.ofText?_eq_some_iff {content : Text} {head : LoopHead} :
    LoopHead.ofText? content = some head ↔
      ∃ iterable, words content = [['f', 'o', 'r'], head.name, ['i', 'n'], iterable] ∧
        isIdentifier head.name = true ∧ Path.ofText? iterable = some head.iterable := by
  unfold LoopHead.ofText?
  constructor
  · intro h
    split at h
    · rename_i opening name preposition iterable hwords
      split at h
      · rename_i hform
        obtain ⟨rfl, hname, rfl⟩ := hform
        obtain ⟨p, hp, rfl⟩ := Option.map_eq_some_iff.mp h
        exact ⟨iterable, hwords, hname, hp⟩
      · cases h
    · cases h
  · rintro ⟨iterable, hwords, hname, hp⟩
    rw [hwords]
    dsimp only
    rw [if_pos ⟨rfl, hname, rfl⟩, hp, Option.map_some]

/-- The two words of a condition. -/
theorem conditionOfText?_eq_some_iff {content : Text} {condition : Path} :
    conditionOfText? content = some condition ↔
      ∃ path, words content = [['i', 'f'], path] ∧ Path.ofText? path = some condition := by
  unfold conditionOfText?
  constructor
  · intro h
    split at h
    · rename_i opening path hwords
      split at h
      · rename_i hopening
        subst hopening
        exact ⟨path, hwords, h⟩
      · cases h
    · cases h
  · rintro ⟨path, hwords, hp⟩
    rw [hwords]
    dsimp only
    rw [if_pos rfl, hp]

/-- The words that the head of a loop is written with. -/
def LoopHead.words (head : LoopHead) : List Text :=
  [Keyword.loop.toText, head.name, ['i', 'n'], head.iterable.toText]

/-- The words that a condition is written with. -/
def conditionWords (condition : Path) : List Text :=
  [Keyword.condition.toText, condition.toText]

/-- A loop is read from its words, whatever blanks stand between them. -/
theorem LoopHead.ofText?_eq_some_iff_words {content : Text} {head : LoopHead} :
    LoopHead.ofText? content = some head ↔
      Text.words content = head.words ∧ isIdentifier head.name = true := by
  rw [LoopHead.ofText?_eq_some_iff]
  constructor
  · rintro ⟨iterable, hwords, hname, hp⟩
    rw [hwords, LoopHead.words, Path.toText_of_ofText? hp]
    exact ⟨rfl, hname⟩
  · rintro ⟨hwords, hname⟩
    exact ⟨head.iterable.toText, hwords, hname, Path.ofText?_toText head.iterable⟩

/-- A condition is read from its words, whatever blanks stand between them. -/
theorem conditionOfText?_eq_some_iff_words {content : Text} {condition : Path} :
    conditionOfText? content = some condition ↔ words content = conditionWords condition := by
  rw [conditionOfText?_eq_some_iff]
  constructor
  · rintro ⟨path, hwords, hp⟩
    rw [hwords, conditionWords, Path.toText_of_ofText? hp]
    rfl
  · intro hwords
    exact ⟨condition.toText, hwords, Path.ofText?_toText condition⟩

/-- A loop has words of its own. -/
theorem LoopHead.words_injective : Function.Injective LoopHead.words := by
  rintro ⟨name, iterable⟩ ⟨name', iterable'⟩ h
  simp only [LoopHead.words, List.cons.injEq, true_and, and_true] at h
  obtain ⟨rfl, hpath⟩ := h
  rw [Path.toText_injective hpath]

/-- A condition has words of its own. -/
theorem conditionWords_injective : Function.Injective conditionWords := by
  intro condition condition' h
  simp only [conditionWords, List.cons.injEq, true_and, and_true] at h
  exact Path.toText_injective h

/-- The parts of an interpolation between its bars. -/
theorem Pipe.ofText?_eq_some_iff {content : Text} {pipe : Pipe} :
    Pipe.ofText? content = some pipe ↔
      ∃ path, (splitOn '|' content).map trim = path :: pipe.filters ∧
        pipe.filters.all isIdentifier = true ∧ Path.ofText? path = some pipe.path := by
  unfold Pipe.ofText?
  constructor
  · intro h
    split at h
    · cases h
    · rename_i path filters hparts
      split at h
      · rename_i hfilters
        obtain ⟨p, hp, rfl⟩ := Option.map_eq_some_iff.mp h
        exact ⟨path, hparts, hfilters, hp⟩
      · cases h
  · rintro ⟨path, hparts, hfilters, hp⟩
    rw [hparts]
    dsimp only
    rw [if_pos hfilters, hp, Option.map_some]

/-- The head of a loop holds expression characters only. -/
theorem LoopHead.isExpressionChar_of_ofText? {content : Text} {head : LoopHead}
    (h : LoopHead.ofText? content = some head) : ∀ c ∈ content, isExpressionChar c = true := by
  obtain ⟨iterable, hwords, hname, hp⟩ := LoopHead.ofText?_eq_some_iff.mp h
  apply isExpressionChar_of_words
  intro w hw
  rw [hwords] at hw
  simp only [List.mem_cons, List.not_mem_nil, or_false] at hw
  rcases hw with rfl | rfl | rfl | rfl
  · exact List.all_eq_true.mp rfl
  · exact fun c hc => isExpressionChar_of_isSegmentChar (isSegmentChar_of_isIdentifier hname c hc)
  · exact List.all_eq_true.mp rfl
  · exact Path.isExpressionChar_of_ofText? hp

/-- The head of a condition holds expression characters only. -/
theorem isExpressionChar_of_conditionOfText? {content : Text} {condition : Path}
    (h : conditionOfText? content = some condition) :
    ∀ c ∈ content, isExpressionChar c = true := by
  obtain ⟨path, hwords, hp⟩ := conditionOfText?_eq_some_iff.mp h
  apply isExpressionChar_of_words
  intro w hw
  rw [hwords] at hw
  simp only [List.mem_cons, List.not_mem_nil, or_false] at hw
  rcases hw with rfl | rfl
  · exact List.all_eq_true.mp rfl
  · exact Path.isExpressionChar_of_ofText? hp

/-- What an interpolation shows is written with expression characters only. -/
theorem Pipe.isExpressionChar_of_ofText? {content : Text} {pipe : Pipe}
    (h : Pipe.ofText? content = some pipe) : ∀ c ∈ content, isExpressionChar c = true := by
  obtain ⟨path, hparts, hfilters, hp⟩ := Pipe.ofText?_eq_some_iff.mp h
  intro c hc
  by_cases hbar : c = '|'
  · simp [isExpressionChar, hbar]
  cases hblank : isBlank c with
  | true => simp [isExpressionChar, hblank]
  | false =>
    obtain ⟨piece, hpiece, hmem⟩ :=
      exists_mem_splitWhere (p := (· == '|')) hc (by simpa using hbar)
    have hpart : trim piece ∈ path :: pipe.filters := hparts ▸ List.mem_map_of_mem hpiece
    have htrim := mem_trim hmem hblank
    rcases List.mem_cons.mp hpart with rfl | hfilter
    · exact Path.isExpressionChar_of_ofText? hp c htrim
    · have hname := List.all_eq_true.mp hfilters _ hfilter
      exact isExpressionChar_of_isSegmentChar (isSegmentChar_of_isIdentifier hname c htrim)

end DocTemplate
