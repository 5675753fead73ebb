import DocTemplate.Layout
import DocTemplate.Proofs.Text.Blank

/-!
# Joining drops blanks only

What a join leaves of the iterations of a loop is their text in order without some of its blanks:
every visible character stays, and nothing is put in between.
-/

namespace DocTemplate

open Text

/-- A text is another one without some of its blanks. -/
structure Thins (t whole : Text) : Prop where
  /-- Its characters are characters of the other one, in order. -/
  sublist : t.Sublist whole
  /-- It shows the same visible characters. -/
  visible : (t.filter fun c => !isBlank c) = whole.filter fun c => !isBlank c

namespace Thins

/-- Nothing has to be dropped. -/
theorem refl (t : Text) : Thins t t := ⟨List.Sublist.refl t, rfl⟩

/-- Blanks may be dropped in two goes. -/
theorem trans {s t whole : Text} (hs : Thins s t) (ht : Thins t whole) : Thins s whole :=
  ⟨hs.sublist.trans ht.sublist, hs.visible.trans ht.visible⟩

/-- Blanks may be dropped part by part. -/
theorem append {s t whole whole' : Text} (hs : Thins s whole) (ht : Thins t whole') :
    Thins (s ++ t) (whole ++ whole') := by
  refine ⟨hs.sublist.append ht.sublist, ?_⟩
  rw [List.filter_append, List.filter_append, hs.visible, ht.visible]

/-- Of blanks any part may stay. -/
theorem of_blank {t whole : Text} (h : t.Sublist whole) (hblank : whole.all isBlank = true) :
    Thins t whole := by
  have hvisible : (whole.filter fun c => !isBlank c) = [] := by
    apply List.filter_eq_nil_iff.mpr
    intro c hc
    simpa using List.all_eq_true.mp hblank c hc
  refine ⟨h, ?_⟩
  rw [hvisible]
  exact List.sublist_nil.mp (hvisible ▸ h.filter _)

/-- Blanks in front may be dropped. -/
theorem behind_blank {t whole blank : Text} (hblank : blank.all isBlank = true)
    (h : Thins t whole) : Thins t (blank ++ whole) :=
  (of_blank (List.nil_sublist blank) hblank).append h

end Thins

/-- A text without the blank lines at its end lacks blanks only. -/
theorem thins_dropTrailingBlankLines (t : Text) : Thins (dropTrailingBlankLines t) t := by
  have hsplit := trimEnd_append_trailingBlanks t
  have hblank := all_isBlank_trailingBlanks t
  unfold dropTrailingBlankLines
  split
  · rename_i hnil
    rw [hnil, List.nil_append] at hsplit
    exact .of_blank (List.nil_sublist t) (hsplit ▸ hblank)
  · have hend : Thins (throughLineFeed (trailingBlanks t)) (trailingBlanks t) :=
      .of_blank (isPrefix_throughLineFeed _).sublist hblank
    have hwhole := (Thins.refl (trimEnd t)).append hend
    rwa [hsplit] at hwhole

/-- Stacked texts lack blanks only. -/
theorem thins_stackBlock (pieces : List Text) : Thins (stackBlock pieces) pieces.flatten := by
  induction pieces with
  | nil => exact .refl []
  | cons t pieces ih => exact (thins_dropTrailingBlankLines t).append ih

/-! ## Joining in a line -/

/-- A visible text is written again from its three parts, of which the outer two are blank. -/
theorem Edged.eq_of_ofText? {t : Text} {e : Edged} (h : Edged.ofText? t = some e) :
    t = e.lead ++ e.content ++ e.trail ∧ e.lead.all isBlank = true ∧
      e.trail.all isBlank = true := by
  unfold Edged.ofText? at h
  split at h
  · cases h
  · rename_i hne
    cases h
    refine ⟨?_, all_isBlank_leadingBlanks t, all_isBlank_trailingBlanks t⟩
    exact (leadingBlanks_append_trim_append_trailingBlanks hne).symm

/-- A text that has no visible part is blank. -/
theorem Edged.all_isBlank_of_ofText? {t : Text} (h : Edged.ofText? t = none) :
    t.all isBlank = true := by
  unfold Edged.ofText? at h
  split at h
  · rename_i hnil
    exact all_isBlank_of_trim_eq_nil hnil
  · cases h

private theorem edgeGap_sublist (run : Text) : (edgeGap run).Sublist run := by
  unfold edgeGap
  split
  · exact .refl run
  · exact List.nil_sublist run

private theorem widerGap_sublist (before after : Text) :
    (widerGap before after).Sublist (before ++ after) := by
  unfold widerGap
  split
  · exact List.sublist_append_left before after
  · split
    · exact List.sublist_append_right before after
    · split
      · exact List.sublist_append_right before after
      · exact List.sublist_append_left before after

private theorem thins_joinBehind {before : Text} (hbefore : before.all isBlank = true)
    (pieces : List Text) :
    Thins (joinBehind before (pieces.filterMap Edged.ofText?)) (before ++ pieces.flatten) := by
  induction pieces generalizing before with
  | nil =>
    rw [List.flatten_nil, List.append_nil]
    exact .of_blank (edgeGap_sublist before) hbefore
  | cons t pieces ih =>
    rw [List.flatten_cons]
    cases hedged : Edged.ofText? t with
    | none =>
      have hblank : (before ++ t).all isBlank = true := by
        rw [List.all_append, hbefore, Edged.all_isBlank_of_ofText? hedged, Bool.and_self]
      have hdrop : Thins before (before ++ t) :=
        .of_blank (List.sublist_append_left before t) hblank
      rw [List.filterMap_cons_none hedged, ← List.append_assoc]
      exact (ih hbefore).trans (hdrop.append (.refl pieces.flatten))
    | some e =>
      obtain ⟨rfl, hlead, htrail⟩ := Edged.eq_of_ofText? hedged
      have hgap : Thins (widerGap before e.lead) (before ++ e.lead) :=
        .of_blank (widerGap_sublist before e.lead) (by rw [List.all_append, hbefore, hlead]; rfl)
      rw [List.filterMap_cons_some hedged, joinBehind]
      have hwhole := (hgap.append (.refl e.content)).append (ih htrail)
      simpa using hwhole

/-- Texts joined in a line lack blanks only. -/
theorem thins_joinInline (pieces : List Text) : Thins (joinInline pieces) pieces.flatten := by
  induction pieces with
  | nil => exact .refl []
  | cons t pieces ih =>
    rw [List.flatten_cons]
    unfold joinInline
    cases hedged : Edged.ofText? t with
    | none =>
      rw [List.filterMap_cons_none hedged]
      exact ih.behind_blank (Edged.all_isBlank_of_ofText? hedged)
    | some e =>
      obtain ⟨rfl, hlead, htrail⟩ := Edged.eq_of_ofText? hedged
      have hgap : Thins (edgeGap e.lead) e.lead := .of_blank (edgeGap_sublist e.lead) hlead
      rw [List.filterMap_cons_some hedged, joinVisible]
      have hwhole := (hgap.append (.refl e.content)).append (thins_joinBehind htrail pieces)
      simpa using hwhole

/-- Joining the iterations of a loop drops blanks only. -/
theorem thins_join (layout : LoopLayout) (pieces : List Text) :
    Thins (layout.join pieces) pieces.flatten := by
  cases layout with
  | block => exact thins_stackBlock pieces
  | inline => exact thins_joinInline pieces

end DocTemplate
