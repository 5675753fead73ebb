import DocTemplate.Proofs.Layout
import Mathlib.Data.List.Forall2

/-!
# Gaps between the iterations of a loop in a line

Every visible iteration is cut in one way into the blanks at its two ends and what stands between
these. A loop in a line shows what stands between the blanks of its visible iterations, in order;
of two runs of blanks that face each other one is kept whole, and at the outer edges a run is kept
if it breaks the line. Iterations with nothing visible leave no trace.
-/

namespace DocTemplate

open Text

/-- Whether something in a text is visible. -/
def Text.isVisible (t : Text) : Bool := t.any fun c => !isBlank c

namespace Edged

/-- A text is cut into the blanks at its two ends and what stands between them, which starts and
ends with a visible character. -/
structure IsCutOf (e : Edged) (t : Text) : Prop where
  /-- The three parts are the text. -/
  whole : t = e.lead ++ e.content ++ e.trail
  /-- In front there are blanks only. -/
  lead : e.lead.all isBlank = true
  /-- Behind there are blanks only. -/
  trail : e.trail.all isBlank = true
  /-- The first character between them is visible. -/
  first : ∃ c, e.content.head? = some c ∧ isBlank c = false
  /-- The last character between them is visible. -/
  last : ∃ c, e.content.getLast? = some c ∧ isBlank c = false

/-- What stands between the blanks is what trimming leaves. -/
theorem IsCutOf.trim_eq {e : Edged} {t : Text} (h : e.IsCutOf t) : trim t = e.content := by
  obtain ⟨c, hc, hfirst⟩ := h.first
  obtain ⟨d, hd, hlast⟩ := h.last
  rw [h.whole]
  apply trim_between h.lead h.trail
  · simpa [hc] using hfirst
  · simpa [hd] using hlast

/-- The blanks in front are the leading blanks. -/
theorem IsCutOf.leadingBlanks_eq {e : Edged} {t : Text} (h : e.IsCutOf t) :
    leadingBlanks t = e.lead := by
  obtain ⟨c, hc, hfirst⟩ := h.first
  obtain ⟨rest, hcontent⟩ := List.head?_eq_some_iff.mp hc
  rw [h.whole, hcontent, leadingBlanks, List.append_assoc,
    List.takeWhile_append_of_pos (List.all_eq_true.mp h.lead), List.cons_append,
    List.takeWhile_cons_of_neg (by simp [hfirst]), List.append_nil]

/-- Taking the blanks off a text cuts it, and there is no other cut. -/
theorem ofText?_eq_some_iff {t : Text} {e : Edged} : ofText? t = some e ↔ e.IsCutOf t := by
  constructor
  · intro h
    obtain ⟨hwhole, hlead, htrail⟩ := eq_of_ofText? h
    unfold ofText? at h
    split at h
    · cases h
    · rename_i hne
      cases h
      have hfirst := List.head?_eq_some_head hne
      have hlast := List.getLast?_eq_some_getLast hne
      exact ⟨hwhole, hlead, htrail, ⟨_, hfirst, visible_of_head?_trim _ hfirst⟩,
        ⟨_, hlast, visible_of_getLast?_trim _ hlast⟩⟩
  · intro h
    obtain ⟨c, hc, -⟩ := h.first
    have hne : trim t ≠ [] := by
      rw [h.trim_eq]
      exact List.ne_nil_of_mem (List.mem_of_head? hc)
    have htrailing : trailingBlanks t = e.trail := by
      have hparts := leadingBlanks_append_trim_append_trailingBlanks hne
      rw [h.leadingBlanks_eq, h.trim_eq] at hparts
      exact List.append_cancel_left (hparts.trans h.whole)
    rw [ofText?, if_neg hne, h.leadingBlanks_eq, h.trim_eq, htrailing]

/-- A text that is cut has something visible in it. -/
theorem IsCutOf.isVisible {e : Edged} {t : Text} (h : e.IsCutOf t) : t.isVisible = true := by
  obtain ⟨c, hc, hfirst⟩ := h.first
  have hmem : c ∈ t := by
    rw [h.whole]
    exact List.mem_append_left _ (List.mem_append_right _ (List.mem_of_head? hc))
  exact List.any_eq_true.mpr ⟨c, hmem, by simp [hfirst]⟩

/-- The visible ones of some texts are cut in order, and the others are left out. -/
theorem forall₂_isCutOf (pieces : List Text) :
    List.Forall₂ IsCutOf (pieces.filterMap ofText?) (pieces.filter Text.isVisible) := by
  induction pieces with
  | nil => exact .nil
  | cons t pieces ih =>
    cases hcut : ofText? t with
    | none =>
      have hblank : t.isVisible = false := by
        simpa [Text.isVisible] using all_isBlank_of_ofText? hcut
      rwa [List.filterMap_cons_none hcut, List.filter_cons_of_neg (by simp [hblank])]
    | some e =>
      have he := ofText?_eq_some_iff.mp hcut
      rw [List.filterMap_cons_some hcut, List.filter_cons_of_pos he.isVisible]
      exact .cons he ih

end Edged

/-- What stays of a run of blanks at an outer edge: all of it if it breaks the line, otherwise
nothing. -/
def IsEdge (kept run : Text) : Prop := ('\n' ∈ run → kept = run) ∧ ('\n' ∉ run → kept = [])

/-- Between two neighbouring texts one of the runs of blanks that face each other stays: the one
with more line feeds, if they differ in that. -/
structure Bridges (gap : Text) (front back : Edged) : Prop where
  /-- A run stays whole. -/
  whole : gap = front.trail ∨ gap = back.lead
  /-- The run in front stays if it has more line feeds. -/
  keepsFront : back.lead.count '\n' < front.trail.count '\n' → gap = front.trail
  /-- The run behind stays if it has more line feeds. -/
  keepsBack : front.trail.count '\n' < back.lead.count '\n' → gap = back.lead
  /-- The texts are as many lines apart as the larger of the two numbers says. -/
  count : gap.count '\n' = max (front.trail.count '\n') (back.lead.count '\n')

/-- What stands between the blanks of texts, each behind a gap. -/
def behindGaps (gaps : List Text) (es : List Edged) : Text :=
  (List.zipWith (fun (gap : Text) (e : Edged) => gap ++ e.content) gaps es).flatten

/-- A text shows other texts in a row: an edge, what stands between the blanks of each of them with
a gap between any two, and an edge. -/
def ShowsRow : List Edged → Text → Prop
  | [], t => t = []
  | first :: rest, t => ∃ start gaps finish,
      t = start ++ first.content ++ behindGaps gaps rest ++ finish ∧
      IsEdge start first.lead ∧
      List.Forall₂ (fun gap pair => Bridges gap pair.1 pair.2) gaps ((first :: rest).zip rest) ∧
      IsEdge finish ((first :: rest).getLast (List.cons_ne_nil first rest)).trail

/-- A run that breaks the line stays at an edge. -/
theorem isEdge_edgeGap (run : Text) : IsEdge (edgeGap run) run := by
  unfold edgeGap
  constructor
  · intro h
    rw [if_pos (List.contains_iff_mem.mpr h)]
  · intro h
    rw [if_neg (by simpa using h)]

/-- The wider of two runs that face each other bridges their texts. -/
theorem bridges_widerGap (front back : Edged) :
    Bridges (widerGap front.trail back.lead) front back := by
  unfold widerGap
  split
  · rename_i hmore
    exact ⟨Or.inl rfl, fun _ => rfl, fun hless => by omega, by omega⟩
  · split
    · rename_i hless
      exact ⟨Or.inr rfl, fun hmore => by omega, fun _ => rfl, by omega⟩
    · have hcount : front.trail.count '\n' = back.lead.count '\n' := by omega
      split
      · exact ⟨Or.inr rfl, fun hmore => by omega, fun _ => rfl, by omega⟩
      · exact ⟨Or.inl rfl, fun _ => rfl, fun hless => by omega, by omega⟩

/-- Behind a text the others follow, each behind a gap, up to the edge of the last one. -/
theorem exists_gaps_joinBehind (front : Edged) (rest : List Edged) :
    ∃ gaps finish,
      joinBehind front.trail rest = behindGaps gaps rest ++ finish ∧
      List.Forall₂ (fun gap pair => Bridges gap pair.1 pair.2) gaps ((front :: rest).zip rest) ∧
      IsEdge finish ((front :: rest).getLast (List.cons_ne_nil front rest)).trail := by
  induction rest generalizing front with
  | nil => exact ⟨[], edgeGap front.trail, rfl, .nil, isEdge_edgeGap front.trail⟩
  | cons back rest ih =>
    obtain ⟨gaps, finish, hjoin, hgaps, hfinish⟩ := ih back
    refine ⟨widerGap front.trail back.lead :: gaps, finish, ?_, ?_, ?_⟩
    · rw [joinBehind, hjoin]
      simp [behindGaps]
    · exact .cons (bridges_widerGap front back) hgaps
    · rwa [List.getLast_cons (List.cons_ne_nil back rest)]

/-- Texts joined in a line are shown in a row, the visible ones of them in order. -/
theorem showsRow_joinInline (pieces : List Text) :
    ∃ es, List.Forall₂ Edged.IsCutOf es (pieces.filter Text.isVisible) ∧
      ShowsRow es (joinInline pieces) := by
  refine ⟨pieces.filterMap Edged.ofText?, Edged.forall₂_isCutOf pieces, ?_⟩
  rw [joinInline]
  cases pieces.filterMap Edged.ofText? with
  | nil => rfl
  | cons first rest =>
    obtain ⟨gaps, finish, hjoin, hgaps, hfinish⟩ := exists_gaps_joinBehind first rest
    refine ⟨edgeGap first.lead, gaps, finish, ?_, isEdge_edgeGap first.lead, hgaps, hfinish⟩
    rw [joinVisible, hjoin, List.append_assoc (_ ++ _)]

example : joinInline ["\n a ".toList, "\t".toList, "b\n\n".toList, "\nc".toList] =
    "\n a b\n\nc".toList := by decide

end DocTemplate
