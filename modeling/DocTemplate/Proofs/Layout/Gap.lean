import DocTemplate.Proofs.Layout.Inline

/-!
# The gap between two neighbours

In a joined line the gap between two neighbouring visible texts depends on these two only: what the
line shows up to the first of them, and from the second of them on, is what the two parts of the
list give alone. If the runs of blanks at the gap have equally many line feeds, the one that takes
more bytes stays. That need not be the one with more characters.
-/

namespace DocTemplate

open Text

/-- Two visible texts of a list with nothing visible between them. -/
structure Neighbours where
  /-- What stands in front of them. -/
  front : List Text
  /-- The first of them. -/
  first : Text
  /-- The texts between them. -/
  between : List Text
  /-- The second of them. -/
  second : Text
  /-- What stands behind them. -/
  back : List Text
  /-- The parts of the first one. -/
  left : Edged
  /-- The parts of the second one. -/
  right : Edged
  /-- The first one is cut. -/
  left_isCutOf : left.IsCutOf first
  /-- The second one is cut. -/
  right_isCutOf : right.IsCutOf second
  /-- The texts between them are blank. -/
  between_isBlank : ∀ t ∈ between, t.isVisible = false

/-- Of two runs the second one if it measures more than the first one, else the first one. -/
def largerBy (measure : Text → Nat) (before after : Text) : Text :=
  if measure before < measure after then after else before

namespace Neighbours

variable (n : Neighbours)

/-- The whole list. -/
def pieces : List Text := n.front ++ n.first :: (n.between ++ n.second :: n.back)

/-- The blanks at the end of the first text and at the start of the second one have equally many
line feeds. -/
def IsTied : Prop := n.left.trail.count '\n' = n.right.lead.count '\n'

/-- In the joined line the gap stands between the two texts: in front of it is what the texts up to
the first one give without the edge at their end, and behind it what the texts from the second one
on give without the edge at their start. -/
def Keeps (gap : Text) : Prop :=
  ∃ before after,
    joinInline (n.front ++ [n.first]) = before ++ n.left.content ++ edgeGap n.left.trail ∧
    joinInline (n.second :: n.back) = edgeGap n.right.lead ++ (n.right.content ++ after) ∧
    joinInline n.pieces = before ++ n.left.content ++ (gap ++ (n.right.content ++ after))

end Neighbours

/-! ## Lines up to a text -/

private theorem exists_joinBehind_eq (run : Text) (front : List Edged) (e : Edged) :
    ∃ before, ∀ back,
      joinBehind run (front ++ e :: back) = before ++ e.content ++ joinBehind e.trail back := by
  induction front generalizing run with
  | nil => exact ⟨widerGap run e.lead, fun _ => rfl⟩
  | cons first front ih =>
    obtain ⟨before, hbefore⟩ := ih first.trail
    refine ⟨widerGap run first.lead ++ first.content ++ before, ?_⟩
    intro back
    rw [List.cons_append, joinBehind, hbefore]
    simp only [List.append_assoc]

/-- What a line shows up to a text does not depend on what comes behind. -/
theorem exists_joinVisible_eq (front : List Edged) (e : Edged) :
    ∃ before, ∀ back,
      joinVisible (front ++ e :: back) = before ++ e.content ++ joinBehind e.trail back := by
  cases front with
  | nil => exact ⟨edgeGap e.lead, fun _ => rfl⟩
  | cons first front =>
    obtain ⟨before, hbefore⟩ := exists_joinBehind_eq first.trail front e
    refine ⟨edgeGap first.lead ++ first.content ++ before, ?_⟩
    intro back
    rw [List.cons_append, joinVisible, hbefore]
    simp only [List.append_assoc]

/-- Blank texts have no parts. -/
theorem filterMap_ofText?_of_isBlank {pieces : List Text}
    (h : ∀ t ∈ pieces, t.isVisible = false) : pieces.filterMap Edged.ofText? = [] := by
  apply List.filterMap_eq_nil_iff.mpr
  intro t ht
  cases hcut : Edged.ofText? t with
  | none => rfl
  | some e =>
    have hvisible := (Edged.ofText?_eq_some_iff.mp hcut).isVisible
    rw [h t ht] at hvisible
    cases hvisible

namespace Neighbours

variable (n : Neighbours)

/-- Between two neighbours the wider of the runs that face each other stands. -/
theorem keeps_widerGap : n.Keeps (widerGap n.left.trail n.right.lead) := by
  have hleft := Edged.ofText?_eq_some_iff.mpr n.left_isCutOf
  have hright := Edged.ofText?_eq_some_iff.mpr n.right_isCutOf
  have hbetween := filterMap_ofText?_of_isBlank n.between_isBlank
  obtain ⟨before, hbefore⟩ := exists_joinVisible_eq (n.front.filterMap Edged.ofText?) n.left
  refine ⟨before, joinBehind n.right.trail (n.back.filterMap Edged.ofText?), ?_, ?_, ?_⟩
  · rw [joinInline, List.filterMap_append, List.filterMap_cons_some hleft, List.filterMap_nil,
      hbefore, joinBehind]
  · rw [joinInline, List.filterMap_cons_some hright, joinVisible, List.append_assoc]
  · rw [joinInline, pieces, List.filterMap_append, List.filterMap_cons_some hleft,
      List.filterMap_append, hbetween, List.nil_append, List.filterMap_cons_some hright, hbefore,
      joinBehind]
    simp only [List.append_assoc]

variable {n}

/-- There is one gap between two neighbours. -/
theorem Keeps.unique {gap gap' : Text} (h : n.Keeps gap) (h' : n.Keeps gap') : gap = gap' := by
  obtain ⟨before, after, hfront, hback, hwhole⟩ := h
  obtain ⟨before', after', hfront', hback', hwhole'⟩ := h'
  have hbefore : before ++ n.left.content = before' ++ n.left.content :=
    List.append_cancel_right (hfront.symm.trans hfront')
  have hafter : n.right.content ++ after = n.right.content ++ after' :=
    List.append_cancel_left (hback.symm.trans hback')
  rw [hwhole, hbefore, hafter] at hwhole'
  exact List.append_cancel_right (List.append_cancel_left hwhole')

/-- Of runs with equally many line feeds the wider one takes more bytes. -/
theorem widerGap_of_isTied (h : n.IsTied) :
    widerGap n.left.trail n.right.lead = largerBy utf8Size n.left.trail n.right.lead := by
  rw [IsTied] at h
  rw [widerGap, if_neg (by omega), if_neg (by omega), largerBy]

end Neighbours

/-- By two measures the same run is the larger one exactly if they compare the runs alike. -/
theorem largerBy_eq_iff {size size' : Text → Nat} {before after : Text} :
    largerBy size before after = largerBy size' before after ↔
      (size before < size after ↔ size' before < size' after) := by
  constructor
  · intro hsame
    by_cases heq : before = after
    · rw [heq]
      simp
    · unfold largerBy at hsame
      by_cases hsize : size before < size after
      · by_cases hsize' : size' before < size' after
        · exact iff_of_true hsize hsize'
        · rw [if_pos hsize, if_neg hsize'] at hsame
          exact absurd hsame.symm heq
      · by_cases hsize' : size' before < size' after
        · rw [if_neg hsize, if_pos hsize'] at hsame
          exact absurd hsame heq
        · exact iff_of_false hsize hsize'
  · intro halike
    simp only [largerBy, halike]

/-- Of two runs with equally many line feeds the one that takes more bytes stays between two
neighbours, and the first one if none does. It is the one with more characters, or the first one of
equally many, exactly if bytes and characters compare the two runs alike. -/
theorem Neighbours.keeps_largerBy_utf8Size (n : Neighbours) (h : n.IsTied) :
    n.Keeps (largerBy utf8Size n.left.trail n.right.lead) ∧
      (n.Keeps (largerBy List.length n.left.trail n.right.lead) ↔
        (utf8Size n.left.trail < utf8Size n.right.lead ↔
          n.left.trail.length < n.right.lead.length)) := by
  have hkeeps : n.Keeps (largerBy utf8Size n.left.trail n.right.lead) := by
    rw [← widerGap_of_isTied h]
    exact n.keeps_widerGap
  refine ⟨hkeeps, ?_⟩
  rw [← largerBy_eq_iff]
  constructor
  · exact hkeeps.unique
  · intro hsame
    rwa [← hsame]

/-- An ideographic space faces two spaces, with a blank text between the two texts. -/
def wideSpace : Neighbours where
  front := [['x']]
  first := ['a', '\u3000']
  between := [['\t']]
  second := [' ', ' ', 'b']
  back := [['c']]
  left := ⟨[], ['a'], ['\u3000']⟩
  right := ⟨[' ', ' '], ['b'], []⟩
  left_isCutOf := Edged.ofText?_eq_some_iff.mp (by decide)
  right_isCutOf := Edged.ofText?_eq_some_iff.mp (by decide)
  between_isBlank := by decide

/-- The one character that takes three bytes stays, and not the two that take two. -/
theorem Neighbours.keeps_largerBy_utf8Size_wideSpace :
    wideSpace.IsTied ∧ wideSpace.Keeps ['\u3000'] ∧ ¬ wideSpace.Keeps [' ', ' '] := by
  have htied : wideSpace.IsTied := rfl
  obtain ⟨hkeeps, hlonger⟩ := wideSpace.keeps_largerBy_utf8Size htied
  have hlarger : largerBy utf8Size wideSpace.left.trail wideSpace.right.lead = ['\u3000'] := by
    decide
  have hother : largerBy List.length wideSpace.left.trail wideSpace.right.lead = [' ', ' '] := by
    decide
  rw [hlarger] at hkeeps
  rw [hother] at hlonger
  refine ⟨htied, hkeeps, ?_⟩
  rw [hlonger]
  decide

/-- Not always the run with more characters stays. -/
theorem Neighbours.exists_shorter_kept :
    ¬ ∀ n : Neighbours, n.IsTied →
      n.Keeps (largerBy List.length n.left.trail n.right.lead) := by
  intro hall
  have hkeeps := hall wideSpace rfl
  have hgap := hkeeps.unique wideSpace.keeps_widerGap
  exact absurd hgap (by decide)

end DocTemplate
