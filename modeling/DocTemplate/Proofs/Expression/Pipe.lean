import DocTemplate.Proofs.Expression
import Mathlib.Data.List.Forall2

/-!
# What an interpolation may say

An interpolation says a path and the names of filters with bars between them, each with any blanks
around it. Just such a content is read, and its parts are found again whatever the blanks are.
-/

namespace DocTemplate

namespace Text

/-! ## Parts with blanks around them -/

/-- The piece is the part with blanks around it. -/
def IsPadded (part piece : Text) : Prop :=
  ∃ front back, front.all isBlank = true ∧ back.all isBlank = true ∧ piece = front ++ part ++ back

/-- A text is what trimming leaves of it with blanks around. -/
theorem isPadded_trim (piece : Text) : IsPadded (trim piece) piece := by
  by_cases h : trim piece = []
  · refine ⟨piece, [], all_isBlank_of_trim_eq_nil h, rfl, ?_⟩
    rw [h, List.append_nil, List.append_nil]
  · exact ⟨leadingBlanks piece, trailingBlanks piece, all_isBlank_leadingBlanks piece,
      all_isBlank_trailingBlanks piece, (leadingBlanks_append_trim_append_trailingBlanks h).symm⟩

/-- Trimming finds a part without blanks again. -/
theorem IsPadded.trim_eq {part piece : Text} (h : IsPadded part piece)
    (hvisible : ∀ c ∈ part, isBlank c = false) : trim piece = part := by
  obtain ⟨front, back, hfront, hback, rfl⟩ := h
  exact trim_between hfront hback (fun c hc => hvisible c (List.mem_of_head? hc))
    (fun c hc => hvisible c (List.mem_of_getLast? hc))

/-- Every piece has a part. -/
theorem exists_isPadded_of_mem {parts pieces : List Text}
    (h : List.Forall₂ IsPadded parts pieces) {piece : Text} (hpiece : piece ∈ pieces) :
    ∃ part ∈ parts, IsPadded part piece := by
  induction h with
  | nil => cases hpiece
  | @cons part first parts pieces hpadded _ ih =>
    rcases List.mem_cons.mp hpiece with rfl | hpiece
    · exact ⟨part, List.mem_cons_self, hpadded⟩
    · obtain ⟨part', hpart', hpadded'⟩ := ih hpiece
      exact ⟨part', List.mem_cons_of_mem part hpart', hpadded'⟩

/-- A visible character of a piece is in the part. -/
theorem IsPadded.mem {part piece : Text} (h : IsPadded part piece) {c : Char} (hc : c ∈ piece)
    (hvisible : isBlank c = false) : c ∈ part := by
  obtain ⟨front, back, hfront, hback, rfl⟩ := h
  have hnot {blanks : Text} (hblanks : blanks.all isBlank = true) : c ∉ blanks := by
    intro hmem
    have hblank := List.all_eq_true.mp hblanks c hmem
    rw [hvisible] at hblank
    cases hblank
  rcases List.mem_append.mp hc with hc | hc
  · exact (List.mem_append.mp hc).resolve_left (hnot hfront)
  · exact absurd hc (hnot hback)

/-- Parts without blanks are what trimming leaves of pieces exactly if each piece is its part with
blanks around it. -/
theorem map_trim_eq_iff {parts pieces : List Text}
    (hvisible : ∀ part ∈ parts, ∀ c ∈ part, isBlank c = false) :
    pieces.map trim = parts ↔ List.Forall₂ IsPadded parts pieces := by
  constructor
  · rintro rfl
    exact List.forall₂_map_left_iff.mpr (List.forall₂_same.mpr fun piece _ => isPadded_trim piece)
  · intro h
    induction h with
    | nil => rfl
    | cons hpadded _ ih =>
      obtain ⟨hpart, hparts⟩ := List.forall_mem_cons.mp hvisible
      rw [List.map_cons, hpadded.trim_eq hpart, ih hparts]

end Text

open Text

namespace Pipe

/-! ## Written pipes -/

/-- The content writes the pipe: the path and the names of the filters, each with blanks around it,
and a bar between neighbours. -/
def IsWrittenAs (pipe : Pipe) (content : Text) : Prop :=
  (∀ name ∈ pipe.filters, isIdentifier name = true) ∧
    ∃ pieces, List.Forall₂ IsPadded (pipe.path.toText :: pipe.filters) pieces ∧
      content = ['|'].intercalate pieces

/-- The parts of a pipe are written with segment characters and dots. -/
theorem isSegmentChar_of_mem_parts {pipe : Pipe}
    (hfilters : ∀ name ∈ pipe.filters, isIdentifier name = true) {part : Text}
    (hpart : part ∈ pipe.path.toText :: pipe.filters) {c : Char} (hc : c ∈ part) :
    c = '.' ∨ isSegmentChar c = true := by
  rcases List.mem_cons.mp hpart with rfl | hname
  · exact Path.mem_toText hc
  · exact Or.inr (isSegmentChar_of_isIdentifier (hfilters part hname) c hc)

/-- No part of a pipe holds a blank. -/
theorem isBlank_of_mem_parts {pipe : Pipe}
    (hfilters : ∀ name ∈ pipe.filters, isIdentifier name = true) :
    ∀ part ∈ pipe.path.toText :: pipe.filters, ∀ c ∈ part, isBlank c = false := by
  intro part hpart c hc
  rcases isSegmentChar_of_mem_parts hfilters hpart hc with rfl | hc
  · decide
  · exact isBlank_of_isSegmentChar hc

/-- A pipe is read from the pieces between the bars exactly if they are its parts with blanks around
them. -/
theorem ofText?_eq_some_iff_forall₂ {content : Text} {pipe : Pipe} :
    ofText? content = some pipe ↔
      (∀ name ∈ pipe.filters, isIdentifier name = true) ∧
        List.Forall₂ IsPadded (pipe.path.toText :: pipe.filters) (splitOn '|' content) := by
  rw [ofText?_eq_some_iff]
  constructor
  · rintro ⟨path, hparts, hfilters, hpath⟩
    rw [← Path.toText_of_ofText? hpath] at hparts
    have hnames := List.all_eq_true.mp hfilters
    exact ⟨hnames, (map_trim_eq_iff (isBlank_of_mem_parts hnames)).mp hparts⟩
  · rintro ⟨hnames, hpadded⟩
    exact ⟨pipe.path.toText, (map_trim_eq_iff (isBlank_of_mem_parts hnames)).mpr hpadded,
      List.all_eq_true.mpr hnames, Path.ofText?_toText pipe.path⟩

/-- The bars of what writes a pipe are those between its parts. -/
theorem splitOn_of_forall₂ {pipe : Pipe}
    (hfilters : ∀ name ∈ pipe.filters, isIdentifier name = true) {pieces : List Text}
    (hpieces : List.Forall₂ IsPadded (pipe.path.toText :: pipe.filters) pieces) :
    splitOn '|' (['|'].intercalate pieces) = pieces := by
  apply splitOn_intercalate
  · intro piece hpiece hbar
    obtain ⟨part, hpart, hpadded⟩ := exists_isPadded_of_mem hpieces hpiece
    have hmem := hpadded.mem hbar (by decide)
    rcases isSegmentChar_of_mem_parts hfilters hpart hmem with hdot | hsegment
    · exact absurd hdot (by decide)
    · exact absurd hsegment (by decide)
  · rintro rfl
    cases hpieces

/-- Exactly the contents that write a pipe are read as it. -/
theorem ofText?_eq_some_iff_isWrittenAs {content : Text} {pipe : Pipe} :
    ofText? content = some pipe ↔ pipe.IsWrittenAs content := by
  rw [ofText?_eq_some_iff_forall₂]
  constructor
  · rintro ⟨hfilters, hpieces⟩
    exact ⟨hfilters, splitOn '|' content, hpieces, (intercalate_splitOn '|' content).symm⟩
  · rintro ⟨hfilters, pieces, hpieces, rfl⟩
    rw [splitOn_of_forall₂ hfilters hpieces]
    exact ⟨hfilters, hpieces⟩

/-- A content that writes no pipe is not read. -/
theorem ofText?_eq_none_iff {content : Text} :
    ofText? content = none ↔ ∀ pipe : Pipe, ¬ pipe.IsWrittenAs content := by
  simp only [Option.eq_none_iff_forall_ne_some, ne_eq, ofText?_eq_some_iff_isWrittenAs]

/-- A content writes one pipe at most. -/
theorem IsWrittenAs.unique {content : Text} {pipe pipe' : Pipe} (h : pipe.IsWrittenAs content)
    (h' : pipe'.IsWrittenAs content) : pipe = pipe' := by
  rw [← ofText?_eq_some_iff_isWrittenAs] at h h'
  exact Option.some.inj (h.symm.trans h')

end Pipe

example : (["a|", "|a", "a|b c", "a|2b", "a|b-c", "a b", ""].map String.toList).filterMap
    Pipe.ofText? = [] := by decide

end DocTemplate
