import DocTemplate.Proofs.Location
import DocTemplate.Proofs.Text.LineStarts
import Mathlib.Data.Prod.Lex

/-!
# Locations of byte offsets

A byte offset between two characters has the location that reading the source up to it leads to. So
different places have different locations, and the later place the greater one, lines compared
first. An offset inside a character, or behind the end, still has its line, with the column one.
-/

namespace DocTemplate

open Text

namespace Location

/-- The line and the column as a pair whose order compares lines first. -/
def lex (l : Location) : ℕ ×ₗ ℕ := toLex (l.line, l.column)

/-- A character leads to a greater location. -/
theorem lex_lt_advance (l : Location) (c : Char) : l.lex < (l.advance c).lex := by
  rw [lex, lex, Prod.Lex.toLex_lt_toLex, advance]
  split
  · exact Or.inl (Nat.lt_succ_self l.line)
  · exact Or.inr ⟨rfl, Nat.lt_succ_self l.column⟩

/-- No text leads to a smaller location. -/
theorem lex_le_after (l : Location) (t : Text) : l.lex ≤ (l.after t).lex := by
  induction t generalizing l with
  | nil => exact le_rfl
  | cons c t ih => exact (l.lex_lt_advance c).le.trans (ih (l.advance c))

/-- Every text but the empty one leads to a greater location. -/
theorem lex_lt_after (l : Location) {t : Text} (h : t ≠ []) : l.lex < (l.after t).lex := by
  obtain ⟨c, t, rfl⟩ := List.exists_cons_of_ne_nil h
  exact (l.lex_lt_advance c).trans_le (lex_le_after (l.advance c) t)

end Location

namespace Text

/-- The location of a place between two characters is what the text in front of it leads to. -/
theorem locate_append (front back : Text) :
    locate (front ++ back) (utf8Size front) = Location.start.after front := by
  have hline : lineIndex (front ++ back) (utf8Size front) = front.count '\n' :=
    lineIndex_append le_rfl fun b hb => (bounds_of_mem_breaksFrom hb).1
  have hsplit := beforeLastLine_append_lastLine front
  have hslice := slice_append (beforeLastLine front) (lastLine front) back
  rw [← utf8Size_append, hsplit] at hslice
  rw [locate, hline, getD_lineStarts, hslice, Location.start_after]

/-- The location of any other offset is the start of its line. -/
theorem locate_of_not_isBoundary {t : Text} {offset : Nat} (h : ¬ t.IsBoundary offset) :
    t.locate offset = ⟨lineIndex t offset + 1, 1⟩ := by
  rw [locate, slice_eq_none h]

/-- Of two places between characters the later one has the greater location. -/
theorem strictMonoOn_locate (t : Text) :
    StrictMonoOn (fun offset => (t.locate offset).lex) {offset | t.IsBoundary offset} := by
  rintro _ ⟨front, back, rfl, rfl⟩ _ ⟨front', back', hwhole, rfl⟩ hlt
  have hprefix : front <+: front' := by
    refine (List.prefix_or_prefix_of_prefix ⟨back, rfl⟩ ⟨back', hwhole.symm⟩).resolve_right ?_
    intro hprefix
    exact absurd (utf8Size_le_of_isPrefix hprefix) (by omega)
  obtain ⟨between, rfl⟩ := hprefix
  have hne : between ≠ [] := by
    rintro rfl
    rw [List.append_nil] at hlt
    exact lt_irrefl _ hlt
  have hlate : (front ++ back).locate (utf8Size (front ++ between)) =
      (Location.start.after front).after between := by
    rw [hwhole, locate_append, Location.after_append]
  dsimp only
  rw [locate_append, hlate]
  exact Location.lex_lt_after _ hne

end Text

/-- The byte offsets of a source correspond to its locations. -/
structure LocatesOffsets (source : Text) : Prop where
  /-- Between characters the line is one more than the line feeds in front, and the column one more
  than the characters behind the last of these. -/
  boundary : ∀ front back, source = front ++ back →
    source.locate (utf8Size front) = ⟨1 + front.count '\n', 1 + (lastLine front).length⟩
  /-- Different places between characters have different locations. -/
  injective : ∀ o o', source.IsBoundary o → source.IsBoundary o' →
    source.locate o = source.locate o' → o = o'
  /-- Places between characters are in the order of their locations, lines compared first. -/
  ordered : ∀ o o', source.IsBoundary o → source.IsBoundary o' →
    (o < o' ↔ (source.locate o).lex < (source.locate o').lex)
  /-- Inside a character the line is that of the character, and the column is one. -/
  inside : ∀ front c back o, source = front ++ c :: back →
    utf8Size front < o → o < utf8Size (front ++ [c]) →
    source.locate o = ⟨1 + front.count '\n', 1⟩
  /-- Behind the end the line is the last one, and the column is one. -/
  behind : ∀ o, utf8Size source < o → source.locate o = ⟨(lines source).length, 1⟩

/-- The locations of any source correspond to its byte offsets. -/
theorem locatesOffsets (source : Text) : LocatesOffsets source := by
  have hmono := source.strictMonoOn_locate
  refine ⟨?_, ?_, ?_, ?_, ?_⟩
  · rintro front back rfl
    rw [locate_append, Location.start_after, Nat.add_comm 1, Nat.add_comm 1]
  · intro o o' ho ho' hsame
    exact hmono.injOn ho ho' (congrArg Location.lex hsame)
  · intro o o' ho ho'
    exact (hmono.lt_iff_lt ho ho').symm
  · rintro front c back o rfl hfirst hlast
    rw [utf8Size_append, utf8Size_cons, utf8Size_nil] at hlast
    rw [locate_of_not_isBoundary (not_isBoundary_of_inside hfirst hlast),
      lineIndex_of_char hfirst.le hlast, Nat.add_comm]
  · intro o ho
    have hline : lineIndex source o = source.count '\n' := by
      have hend : lineIndex (source ++ []) o = source.count '\n' :=
        lineIndex_append ho.le (by simp)
      rwa [List.append_nil] at hend
    rw [locate_of_not_isBoundary (not_isBoundary_of_lt ho), hline, length_lines]

example : (List.range 8).map (locate "aé\n\nb".toList) =
    [⟨1, 1⟩, ⟨1, 2⟩, ⟨1, 1⟩, ⟨1, 3⟩, ⟨2, 1⟩, ⟨3, 1⟩, ⟨3, 2⟩, ⟨3, 1⟩] := by decide

end DocTemplate
