import DocTemplate.Path
import DocTemplate.Proofs.Text.Split

/-!
# Reading what a path is written as

A path is read back from its text, and the text of a path that has been read is what it was read
from. It holds segment characters and dots only, so no blank is in it.
-/

namespace DocTemplate

open Text

/-- Segment characters are visible. -/
theorem isBlank_of_isSegmentChar {c : Char} (h : isSegmentChar c = true) : isBlank c = false := by
  delta isSegmentChar Char.isAlphanum Char.isAlpha Char.isUpper Char.isLower Char.isDigit at h
  simp only [Bool.or_eq_true, Bool.and_eq_true, decide_eq_true_eq, beq_iff_eq, ge_iff_le,
    UInt32.le_iff_toNat_le] at h
  change ((((65 ≤ c.toNat ∧ c.toNat ≤ 90) ∨ (97 ≤ c.toNat ∧ c.toNat ≤ 122)) ∨
    (48 ≤ c.toNat ∧ c.toNat ≤ 57)) ∨ c = '_') ∨ c = '-' at h
  simp only [isBlank, Bool.or_eq_false_iff, Bool.and_eq_false_iff, decide_eq_false_iff_not,
    beq_eq_false_iff_ne]
  rcases h with (h | rfl) | rfl
  · omega
  · decide
  · decide

namespace Path

/-- The path of a variable itself. -/
def ofName (name : Text) (h : isSegment name = true) : Path :=
  ⟨name, [], List.forall_mem_singleton.mpr h⟩

/-- The path with the segments of a path is that path. -/
theorem ofSegments?_segments (p : Path) : ofSegments? p.segments = some p := by
  obtain ⟨head, tail, hvalid⟩ := p
  rw [segments_mk, ofSegments?, dif_pos hvalid]

/-- A path is written with segment characters and dots. -/
theorem mem_toText {p : Path} {c : Char} (h : c ∈ p.toText) : c = '.' ∨ isSegmentChar c = true := by
  rcases mem_intercalate h with hdot | ⟨s, hs, hmem⟩
  · exact Or.inl hdot
  · have hvalid := p.valid s hs
    rw [isSegment, Bool.and_eq_true] at hvalid
    exact Or.inr (List.all_eq_true.mp hvalid.2 c hmem)

/-- A path is read back from its text. -/
theorem ofText?_toText (p : Path) : ofText? p.toText = some p := by
  have hdots : ∀ s ∈ p.segments, '.' ∉ s := by
    intro s hs hdot
    have hvalid := p.valid s hs
    rw [isSegment, Bool.and_eq_true] at hvalid
    exact absurd (List.all_eq_true.mp hvalid.2 '.' hdot) (by decide)
  rw [ofText?, toText, splitOn_intercalate hdots (List.cons_ne_nil p.head p.tail),
    ofSegments?_segments]

/-- A path that is read is written as what it was read from. -/
theorem toText_of_ofText? {t : Text} {p : Path} (h : ofText? t = some p) : p.toText = t := by
  rw [toText, segments_of_ofSegments? h, intercalate_splitOn]

/-- A path is told by what it is written as. -/
theorem toText_injective : Function.Injective toText := by
  intro p p' h
  have hread := ofText?_toText p
  rw [h, ofText?_toText] at hread
  exact (Option.some.inj hread).symm

/-- A path is one word. -/
theorem isWord_toText (p : Path) : p.toText ≠ [] ∧ ∀ c ∈ p.toText, isBlank c = false := by
  constructor
  · intro hnil
    have hread := ofText?_toText p
    rw [hnil] at hread
    cases hread
  · intro c hc
    rcases mem_toText hc with rfl | hc
    · decide
    · exact isBlank_of_isSegmentChar hc

end Path

end DocTemplate
