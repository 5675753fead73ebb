import DocTemplate.Proofs.Path

/-!
# The texts that are paths

A text is a path exactly if it consists of segments with one dot between neighbours, so no dot
stands at an end of it or beside another dot. The segments of the path are those of the text, in
order, and the path is written as that text again; so different texts are different paths, and every
list of segments that is not empty is that of a path.
-/

namespace DocTemplate

open Text

/-- The character may stand in a segment exactly if it is an ASCII letter or digit, an underscore or
a dash. -/
theorem isSegmentChar_iff {c : Char} :
    isSegmentChar c = true ↔
      ('a' ≤ c ∧ c ≤ 'z') ∨ ('A' ≤ c ∧ c ≤ 'Z') ∨ ('0' ≤ c ∧ c ≤ '9') ∨ c = '_' ∨ c = '-' := by
  delta isSegmentChar Char.isAlphanum Char.isAlpha Char.isUpper Char.isLower Char.isDigit
  simp only [Bool.or_eq_true, Bool.and_eq_true, decide_eq_true_eq, beq_iff_eq, ge_iff_le,
    Char.le_def]
  change ((((65 ≤ c.val ∧ c.val ≤ 90) ∨ (97 ≤ c.val ∧ c.val ≤ 122)) ∨ (48 ≤ c.val ∧ c.val ≤ 57)) ∨
    c = '_') ∨ c = '-' ↔ (97 ≤ c.val ∧ c.val ≤ 122) ∨ (65 ≤ c.val ∧ c.val ≤ 90) ∨
    (48 ≤ c.val ∧ c.val ≤ 57) ∨ c = '_' ∨ c = '-'
  rw [or_assoc, or_assoc, or_assoc, or_left_comm]

namespace Path

/-- A segment as it is spelt: ASCII letters and digits, underscores and dashes, at least one. -/
def IsSpeltSegment (s : Text) : Prop :=
  s ≠ [] ∧ ∀ c ∈ s,
    ('a' ≤ c ∧ c ≤ 'z') ∨ ('A' ≤ c ∧ c ≤ 'Z') ∨ ('0' ≤ c ∧ c ≤ '9') ∨ c = '_' ∨ c = '-'

/-- What is spelt like a segment is accepted as one. -/
theorem isSegment_iff {s : Text} : isSegment s = true ↔ IsSpeltSegment s := by
  simp only [isSegment, IsSpeltSegment, Bool.and_eq_true, Bool.not_eq_true',
    List.isEmpty_eq_false_iff, List.all_eq_true, isSegmentChar_iff, ne_eq]

instance (s : Text) : Decidable (IsSpeltSegment s) := decidable_of_iff _ isSegment_iff

/-- The text spells the segments: they stand one behind the other with a dot between neighbours. -/
inductive Spells : List Text → Text → Prop
  /-- A single segment spells itself. -/
  | segment {s : Text} (hs : IsSpeltSegment s) : Spells [s] s
  /-- A segment, a dot and further segments. -/
  | dot {s rest : Text} {ss : List Text} (hs : IsSpeltSegment s) (hrest : Spells ss rest) :
    Spells (s :: ss) (s ++ '.' :: rest)

/-- Segments spell what they are joined to. -/
theorem spells_intercalate {head : Text} {tail : List Text}
    (h : ∀ s ∈ head :: tail, IsSpeltSegment s) :
    Spells (head :: tail) (['.'].intercalate (head :: tail)) := by
  induction tail generalizing head with
  | nil =>
    rw [List.intercalate_singleton]
    exact .segment (h head List.mem_cons_self)
  | cons next tail ih =>
    obtain ⟨hhead, hrest⟩ := List.forall_mem_cons.mp h
    rw [List.intercalate_cons_cons, List.append_assoc, List.singleton_append]
    exact .dot hhead (ih hrest)

/-- A text that spells segments is what they are joined to, and there is at least one of them. -/
theorem Spells.eq_intercalate {ss : List Text} {t : Text} (h : Spells ss t) :
    ss ≠ [] ∧ (∀ s ∈ ss, IsSpeltSegment s) ∧ t = ['.'].intercalate ss := by
  induction h with
  | segment hs =>
    exact ⟨List.cons_ne_nil _ _, List.forall_mem_singleton.mpr hs, List.intercalate_singleton.symm⟩
  | dot hs _ ih =>
    obtain ⟨hne, hall, rfl⟩ := ih
    obtain ⟨next, ss, rfl⟩ := List.exists_cons_of_ne_nil hne
    refine ⟨List.cons_ne_nil _ _, List.forall_mem_cons.mpr ⟨hs, hall⟩, ?_⟩
    rw [List.intercalate_cons_cons, List.append_assoc, List.singleton_append]

/-- The segments of a path are spelt by its text. -/
theorem spells_toText (p : Path) : Spells p.segments p.toText :=
  spells_intercalate fun s hs => isSegment_iff.mp (p.valid s hs)

/-- A path is read from a text exactly if the text spells its segments. -/
theorem ofText?_eq_some_iff_spells {t : Text} {p : Path} :
    ofText? t = some p ↔ Spells p.segments t := by
  constructor
  · intro h
    rw [← toText_of_ofText? h]
    exact p.spells_toText
  · intro h
    obtain ⟨-, -, rfl⟩ := h.eq_intercalate
    exact p.ofText?_toText

/-- Segments that are spelt by a text are those of a path. -/
theorem Spells.exists_path {ss : List Text} {t : Text} (h : Spells ss t) :
    ∃ p : Path, p.segments = ss := by
  obtain ⟨hne, hall, -⟩ := h.eq_intercalate
  obtain ⟨head, tail, rfl⟩ := List.exists_cons_of_ne_nil hne
  exact ⟨⟨head, tail, fun s hs => isSegment_iff.mpr (hall s hs)⟩, rfl⟩

/-- Reading and writing of paths undo each other. -/
structure RoundTrips : Prop where
  /-- A text is read exactly if it is segments with one dot between neighbours. -/
  reads : ∀ t, (∃ p, ofText? t = some p) ↔ ∃ ss, Spells ss t
  /-- A path is written as what it was read from, and its head and the steps behind it are the
  segments there. -/
  writes : ∀ t p, ofText? t = some p → p.toText = t ∧ Spells (p.head :: p.tail) t
  /-- Segments joined by dots are read as the path of just these segments. -/
  joins : ∀ head tail, (∀ s ∈ head :: tail, IsSpeltSegment s) →
    ∃ p, ofText? (['.'].intercalate (head :: tail)) = some p ∧ p.head = head ∧ p.tail = tail
  /-- Different texts are different paths. -/
  injective : ∀ t t' p, ofText? t = some p → ofText? t' = some p → t = t'

/-- Exactly the dotted texts are paths, and no path loses or changes a part of its text. -/
theorem roundTrips : RoundTrips := by
  refine ⟨?_, ?_, ?_, ?_⟩
  · intro t
    constructor
    · rintro ⟨p, hp⟩
      exact ⟨p.segments, ofText?_eq_some_iff_spells.mp hp⟩
    · rintro ⟨ss, hss⟩
      obtain ⟨p, rfl⟩ := hss.exists_path
      exact ⟨p, ofText?_eq_some_iff_spells.mpr hss⟩
  · intro t p hp
    exact ⟨toText_of_ofText? hp, ofText?_eq_some_iff_spells.mp hp⟩
  · intro head tail hvalid
    have hspells := spells_intercalate hvalid
    obtain ⟨p, hp⟩ := hspells.exists_path
    obtain ⟨hhead, htail⟩ := List.cons.inj hp
    exact ⟨p, ofText?_eq_some_iff_spells.mpr (hp ▸ hspells), hhead, htail⟩
  · intro t t' p hp hp'
    rw [← toText_of_ofText? hp, toText_of_ofText? hp']

/-- A path with a dash in a segment and with a segment of digits. -/
theorem roundTrips_pageTitle :
    (∀ s ∈ ["site-info".toList, ['0'], "title".toList], IsSpeltSegment s) ∧
      ∃ p, ofText? "site-info.0.title".toList = some p ∧ p.head = "site-info".toList ∧
        p.tail = [['0'], "title".toList] := by
  have hsegments : ∀ s ∈ ["site-info".toList, ['0'], "title".toList], IsSpeltSegment s := by decide
  exact ⟨hsegments, roundTrips.joins _ _ hsegments⟩

example : [[], ".a".toList, "a.".toList, "a..b".toList, "a b".toList].filterMap ofText? = [] := by
  decide

end Path

end DocTemplate
