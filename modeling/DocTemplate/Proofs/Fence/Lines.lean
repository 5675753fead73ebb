import DocTemplate.Proofs.Fence.Flags
import DocTemplate.Proofs.Text.Split
import Mathlib.Algebra.Ring.Parity

/-!
# Which lines are fenced

Every byte of a source is on one line. The line is fenced exactly if it is a delimiter or has an odd
number of delimiters above it, so what stands behind a line does not matter for it.
-/

namespace DocTemplate

open Text

/-! ## The lines of a source -/

/-- A line of a source. -/
@[ext] structure Text.Line (source : Text) where
  /-- The lines above, with their line feeds. -/
  above : Text
  /-- The line without its line feed. -/
  text : Text
  /-- The line feed of the line and the lines below, or nothing. -/
  rest : Text
  /-- The three parts are the source. -/
  whole : source = above ++ (text ++ rest)
  /-- Above are whole lines. -/
  endsLine : EndsLine above
  /-- Nothing breaks the line. -/
  unbroken : '\n' ∉ text
  /-- It ends in front of a line feed or at the end of the source. -/
  stop : ∀ c ∈ rest.head?, c = '\n'

namespace Text.Line

variable {source : Text}

/-- The line of a place between two texts. -/
def around (front back : Text) : Line (front ++ back) where
  above := beforeLastLine front
  text := lastLine front ++ back.takeWhile (· != '\n')
  rest := back.dropWhile (· != '\n')
  whole := by
    rw [List.append_assoc, List.takeWhile_append_dropWhile, ← List.append_assoc,
      beforeLastLine_append_lastLine]
  endsLine := endsLine_beforeLastLine front
  unbroken := by
    rw [List.mem_append, not_or]
    exact ⟨not_mem_lastLine front, not_mem_takeWhile back⟩
  stop := by
    intro c hc
    have hfirst := List.head?_dropWhile_not (· != '\n') back
    rw [Option.mem_def.mp hc] at hfirst
    simpa using hfirst

/-- The index of a line, counted from zero. -/
def index (l : Line source) : Nat := l.above.count '\n'

/-- A byte offset is on a line if it is in the line or at its end. -/
def Holds (l : Line source) (offset : Nat) : Prop :=
  utf8Size l.above ≤ offset ∧ offset ≤ utf8Size (l.above ++ l.text)

/-- Up to its line feed or the end of the source a line is a list of characters without line
feeds. -/
theorem takeWhile_eq_text (l : Line source) :
    (l.text ++ l.rest).takeWhile (· != '\n') = l.text := by
  have hrest : l.rest.takeWhile (· != '\n') = [] := by
    cases hcases : l.rest with
    | nil => rfl
    | cons c rest =>
      obtain rfl := l.stop c (by rw [hcases]; rfl)
      rfl
  rw [List.takeWhile_append_of_pos (forall_ne_of_not_mem l.unbroken), hrest, List.append_nil]

/-- The lines of a source with one of them told apart. -/
theorem exists_lines_eq (l : Line source) :
    ∃ below, lines source = (lines l.above).dropLast ++ l.text :: below := by
  have htext : ∀ c ∈ l.text, (c == '\n') = false := by
    intro c hc
    simpa using forall_ne_of_not_mem l.unbroken c hc
  have hlines : ∃ below, lines (l.text ++ l.rest) = l.text :: below := by
    cases hrest : l.rest with
    | nil =>
      refine ⟨[], ?_⟩
      rw [List.append_nil, lines, splitOn, splitWhere_eq_splitOnP]
      exact List.splitOnP_eq_singleton htext
    | cons c rest =>
      have hc := l.stop c (by rw [hrest]; rfl)
      exact ⟨lines rest, splitWhere_append_cons htext (by simpa using hc) rest⟩
  obtain ⟨below, hbelow⟩ := hlines
  have hsource := lines_append l.endsLine (l.text ++ l.rest)
  rw [← l.whole, hbelow] at hsource
  exact ⟨below, hsource⟩

/-- The lookup by byte offset finds the line that holds the offset. -/
theorem lineIndex_eq {l : Line source} {offset : Nat} (h : l.Holds offset) :
    lineIndex source offset = l.index := by
  have hlast := h.2
  rw [utf8Size_append] at hlast
  have hnone : breaksFrom (utf8Size l.above) l.text = [] := by
    rw [← List.length_eq_zero_iff, length_breaksFrom, List.count_eq_zero]
    exact l.unbroken
  have hbelow : ∀ b ∈ breaksFrom (utf8Size l.above) (l.text ++ l.rest), offset < b := by
    intro b hb
    rw [breaksFrom_append, hnone, List.nil_append] at hb
    exact hlast.trans_lt (bounds_of_mem_breaksFrom hb).1
  have hindex := lineIndex_append h.1 hbelow
  rwa [← l.whole] at hindex

/-- A line is known by its index. -/
theorem eq_of_index_eq {l l' : Line source} (h : l.index = l'.index) : l = l' := by
  have habove {l l' : Line source} (h : l.index = l'.index) (hstart : l.above <+: l'.above) :
      l.above = l'.above := by
    obtain ⟨between, hbetween⟩ := hstart
    have hends : EndsLine between := EndsLine.of_append (s := l.above) (hbetween ▸ l'.endsLine)
    have hcount : between.count '\n' = 0 := by
      rw [index, index, ← hbetween, List.count_append] at h
      omega
    have hnil : between = [] := by
      by_contra hne
      exact List.count_eq_zero.mp hcount (hends.mem hne)
    rw [← hbetween, hnil, List.append_nil]
  have hsame : l.above = l'.above := by
    rcases List.prefix_or_prefix_of_prefix ⟨_, l.whole.symm⟩ ⟨_, l'.whole.symm⟩ with hle | hle
    · exact habove h hle
    · exact (habove h.symm hle).symm
  have hbehind : l.text ++ l.rest = l'.text ++ l'.rest := by
    have hwhole := l.whole.symm.trans l'.whole
    rw [hsame] at hwhole
    exact List.append_cancel_left hwhole
  have htext : l.text = l'.text := by
    rw [← l.takeWhile_eq_text, hbehind, l'.takeWhile_eq_text]
  rw [htext] at hbehind
  exact Line.ext hsame htext (List.append_cancel_left hbehind)

/-- Between whole lines and any text starts a line. -/
theorem index_around {front : Text} (h : EndsLine front) (back : Text) :
    (around front back).index = front.count '\n' := by
  have hall := beforeLastLine_append_lastLine front
  rw [h.lastLine_eq_nil, List.append_nil] at hall
  exact congrArg (List.count '\n') hall

/-- The indices of the lines of a source go up to their number. -/
theorem exists_index_eq_iff {index : Nat} :
    (∃ l : Line source, l.index = index) ↔ index < Fence.lineCount source := by
  have hcount (l : Line source) : source.count '\n' = l.index + l.rest.count '\n' := by
    have htext : l.text.count '\n' = 0 := List.count_eq_zero.mpr l.unbroken
    conv_lhs => rw [l.whole]
    rw [List.count_append, List.count_append, htext, Nat.zero_add, Line.index]
  rw [Fence.lineCount, length_lines]
  constructor
  · rintro ⟨l, rfl⟩
    have := hcount l
    omega
  · intro h
    induction index with
    | zero => exact ⟨around [] source, rfl⟩
    | succ n ih =>
      obtain ⟨l, rfl⟩ := ih (by omega)
      have hlines := hcount l
      cases hrest : l.rest with
      | nil =>
        rw [hrest, List.count_nil] at hlines
        omega
      | cons c below =>
        obtain rfl := l.stop c (by rw [hrest]; rfl)
        -- The next line starts behind the line feed of this one.
        have hnext : ∃ l' : Line (l.above ++ l.text ++ ['\n'] ++ below),
            l'.index = l.index + 1 := by
          refine ⟨around _ below, ?_⟩
          rw [index_around (Or.inr List.getLast?_concat), List.count_append, List.count_append,
            List.count_eq_zero.mpr l.unbroken]
          rfl
        have hwhole : l.above ++ l.text ++ ['\n'] ++ below = source := by
          conv_rhs => rw [l.whole, hrest]
          simp
        rwa [hwhole] at hnext

/-- Every byte offset up to the size of a source is on a line. -/
theorem exists_holds {offset : Nat} (h : offset ≤ utf8Size source) :
    ∃ l : Line source, l.Holds offset := by
  -- The offset is behind a text on the line and in front of the line feed of the line.
  obtain ⟨front, back, rfl, hfirst, hlast⟩ : ∃ front back, source = front ++ back ∧
      utf8Size front ≤ offset ∧
      offset ≤ utf8Size (front ++ back.takeWhile (· != '\n')) := by
    rcases Nat.lt_or_eq_of_le h with hlt | rfl
    · have hsize : offset < utf8Size [] + utf8Size source := by
        rwa [utf8Size_nil, Nat.zero_add]
      obtain ⟨front, c, back, rfl, hfirst, hlast⟩ := exists_char_at (Nat.zero_le offset) hsize
      rw [List.nil_append] at hfirst hlast
      refine ⟨front, c :: back, rfl, hfirst, ?_⟩
      rw [utf8Size_append]
      by_cases hc : c = '\n'
      · subst hc
        have hsize : Char.utf8Size '\n' = 1 := rfl
        omega
      · rw [List.takeWhile_cons_of_pos (by simpa using hc), utf8Size_cons]
        omega
    · exact ⟨source, [], by simp, le_rfl, by simp⟩
  have hfront := beforeLastLine_append_lastLine front
  refine ⟨around front back, ?_, ?_⟩
  · refine le_trans ?_ hfirst
    exact utf8Size_le_of_isPrefix ⟨lastLine front, hfront⟩
  · rwa [around, ← List.append_assoc, hfront]

/-- There is one line for each offset. -/
theorem Holds.unique {l l' : Line source} {offset : Nat} (h : l.Holds offset)
    (h' : l'.Holds offset) : l = l' :=
  eq_of_index_eq ((lineIndex_eq h).symm.trans (lineIndex_eq h'))

end Text.Line

/-! ## Fenced lines -/

namespace Fence

/-- A line that opens or closes fenced code starts with three backticks behind blanks. -/
def IsDelimiterLine (line : Text) : Prop :=
  ∃ blanks rest, line = blanks ++ marker ++ rest ∧ blanks.all isBlank = true

/-- Delimiters are told by their first visible characters. -/
theorem isDelimiter_iff {line : Text} : isDelimiter line = true ↔ IsDelimiterLine line := by
  constructor
  · intro h
    obtain ⟨rest, hrest⟩ := List.isPrefixOf_iff_prefix.mp h
    refine ⟨leadingBlanks line, rest, ?_, all_isBlank_leadingBlanks line⟩
    rw [List.append_assoc, hrest, leadingBlanks_append_trimStart]
  · rintro ⟨blanks, rest, rfl, hblanks⟩
    have hvisible : isBlank '\x60' = false := by decide
    rw [isDelimiter, trimStart, List.append_assoc,
      List.dropWhile_append_of_pos (List.all_eq_true.mp hblanks)]
    simp [marker, hvisible]

instance : DecidablePred IsDelimiterLine := fun _ => decidable_of_iff _ isDelimiter_iff

end Fence

namespace Text.Line

open Fence

variable {source : Text}

/-- The number of delimiters above a line. -/
def delimitersAbove (l : Line source) : Nat :=
  (lines l.above).countP fun line => decide (IsDelimiterLine line)

/-- A line is fenced if it is a delimiter or the number of delimiters above it is odd. -/
def IsFenced (l : Line source) : Prop := IsDelimiterLine l.text ∨ Odd l.delimitersAbove

/-- The flag of a line tells whether it is fenced. -/
theorem isLineInside_index (l : Line source) : isLineInside source l.index = true ↔ l.IsFenced := by
  obtain ⟨below, hlines⟩ := l.exists_lines_eq
  have hcount : l.delimitersAbove = (lines l.above).dropLast.countP isDelimiter := by
    have hsame : (fun line => decide (IsDelimiterLine line)) = isDelimiter := by
      funext line
      rw [Bool.eq_iff_iff, decide_eq_true_iff, isDelimiter_iff]
    have hlast : isDelimiter [] = false := rfl
    rw [delimitersAbove, hsame, l.endsLine.lines_eq, List.countP_append, List.countP_singleton,
      hlast, List.dropLast_concat]
    rfl
  have hlength : (classify false (lines l.above).dropLast).length = l.index := by
    rw [length_classify, List.length_dropLast, length_lines, Nat.add_sub_cancel, index]
  have hflag : isLineInside source l.index =
      (isDelimiter l.text || decide (l.delimitersAbove % 2 = 1)) := by
    rw [isLineInside, lineFlags, hlines, classify_append, ← hcount, Bool.false_xor,
      List.getD_eq_getElem?_getD, List.getElem?_append_right hlength.le, hlength, Nat.sub_self,
      classify]
    cases isDelimiter l.text <;> rfl
  rw [hflag, Bool.or_eq_true, isDelimiter_iff, decide_eq_true_iff, ← Nat.odd_iff, IsFenced]

/-- The lookup by byte offset reads the flag of the line that holds the offset. -/
theorem isInside_eq {l : Line source} {offset : Nat} (h : l.Holds offset) :
    isInside source offset = isLineInside source l.index := by
  rw [isInside, lineIndex_eq h]

end Text.Line

namespace Fence

/-- The lines of a source are classified by themselves and the lines above them. -/
structure ClassifiesLines (source : Text) : Prop where
  /-- Every byte offset up to the size of the source is on one line. -/
  line : ∀ offset ≤ utf8Size source, ∃! l : Line source, l.Holds offset
  /-- Flags are kept for the lines, by their indices, and an index without a line has none. -/
  flag : ∀ index, isLineInside source index = true ↔ ∃ l : Line source, l.index = index ∧ l.IsFenced
  /-- A byte offset is in fenced code exactly if its line is fenced. -/
  inside : ∀ (l : Line source) (offset : Nat), l.Holds offset →
    (isInside source offset = true ↔ l.IsFenced)
  /-- If a source is changed behind a line only, the line and its offsets are classified as
  before. -/
  stable : ∀ (l : Line source) (source' : Text) (l' : Line source'),
    l'.above = l.above → l'.text = l.text →
    isLineInside source' l'.index = isLineInside source l.index ∧
      ∀ offset, l.Holds offset → isInside source' offset = isInside source offset

/-- The lines of any source are classified by themselves and the lines above them. -/
theorem classifiesLines (source : Text) : ClassifiesLines source := by
  refine ⟨?_, ?_, ?_, ?_⟩
  · intro offset hoffset
    obtain ⟨l, hl⟩ := Line.exists_holds hoffset
    exact ⟨l, hl, fun l' hl' => hl'.unique hl⟩
  · intro index
    constructor
    · intro h
      obtain ⟨l, rfl⟩ := Line.exists_index_eq_iff.mpr (lt_lineCount_of_isLineInside h)
      exact ⟨l, rfl, l.isLineInside_index.mp h⟩
    · rintro ⟨l, rfl, h⟩
      exact l.isLineInside_index.mpr h
  · intro l offset hl
    rw [Line.isInside_eq hl, l.isLineInside_index]
  · intro l source' l' habove htext
    have hfenced : l'.IsFenced ↔ l.IsFenced := by
      rw [Line.IsFenced, Line.IsFenced, Line.delimitersAbove, Line.delimitersAbove, habove, htext]
    have hline : isLineInside source' l'.index = isLineInside source l.index := by
      rw [Bool.eq_iff_iff, l'.isLineInside_index, l.isLineInside_index, hfenced]
    refine ⟨hline, fun offset hl => ?_⟩
    have hl' : l'.Holds offset := by rwa [Line.Holds, habove, htext]
    rw [Line.isInside_eq hl', Line.isInside_eq hl, hline]

example : (List.range 8).map (isInside "a\n ```\nb".toList) =
    [false, false, true, true, true, true, true, true] := by decide

end Fence

end DocTemplate
