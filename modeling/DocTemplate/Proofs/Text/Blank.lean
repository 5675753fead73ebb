import DocTemplate.Proofs.Text.Line
import DocTemplate.Text.Blank

/-!
# What trimming and splitting lose

Trimming loses blanks and splitting loses separators, so every other character of a text is a
character of what is left. A text with something visible in it is what trimming leaves between two
runs of blanks.
-/

namespace DocTemplate.Text

/-- A split loses separators only. -/
theorem exists_mem_splitWhere {p : Char → Bool} {c : Char} {t : Text} (h : c ∈ t)
    (hc : p c = false) : ∃ piece ∈ splitWhere p t, c ∈ piece := by
  induction t with
  | nil => cases h
  | cons d t ih =>
    rw [splitWhere]
    rcases List.mem_cons.mp h with rfl | h
    · rw [if_neg (by simp [hc])]
      obtain ⟨piece, pieces, hpieces⟩ := List.exists_cons_of_ne_nil (splitWhere_ne_nil p t)
      rw [hpieces, List.modifyHead_cons]
      exact ⟨c :: piece, List.mem_cons_self, List.mem_cons_self⟩
    · obtain ⟨piece, hpiece, hmem⟩ := ih h
      split
      · exact ⟨piece, List.mem_cons_of_mem _ hpiece, hmem⟩
      · cases hpieces : splitWhere p t with
        | nil => exact absurd hpieces (splitWhere_ne_nil p t)
        | cons first pieces =>
          rw [hpieces] at hpiece
          rw [List.modifyHead_cons]
          rcases List.mem_cons.mp hpiece with rfl | hpiece
          · exact ⟨d :: piece, List.mem_cons_self, List.mem_cons_of_mem d hmem⟩
          · exact ⟨piece, List.mem_cons_of_mem _ hpiece, hmem⟩

/-- A visible character of a text is in one of its words. -/
theorem exists_mem_words {c : Char} {t : Text} (h : c ∈ t) (hc : isBlank c = false) :
    ∃ w ∈ words t, c ∈ w := by
  obtain ⟨w, hw, hmem⟩ := exists_mem_splitWhere h hc
  exact ⟨w, List.mem_filter.mpr ⟨hw, by simpa using List.ne_nil_of_mem hmem⟩, hmem⟩

/-! ## Dropping a suffix -/

/-- What stands in front of a suffix is what dropping the suffix leaves. -/
theorem dropSuffix_append {suffix t : Text} (h : suffix.isSuffixOf t = true) :
    dropSuffix suffix t ++ suffix = t := by
  obtain ⟨front, rfl⟩ := List.isSuffixOf_iff_suffix.mp h
  rw [dropSuffix, if_pos h, List.length_append, Nat.add_sub_cancel, List.take_left]

/-- Dropping a suffix loses characters of the suffix only. -/
theorem mem_dropSuffix {c : Char} {suffix t : Text} (h : c ∈ t) (hc : c ∉ suffix) :
    c ∈ dropSuffix suffix t := by
  by_cases hsuffix : suffix.isSuffixOf t = true
  · rw [← dropSuffix_append hsuffix] at h
    exact (List.mem_append.mp h).resolve_right hc
  · rwa [dropSuffix, if_neg hsuffix]

/-! ## Trimming -/

/-- The blanks in front of a text are blank. -/
theorem all_isBlank_leadingBlanks (t : Text) : (leadingBlanks t).all isBlank = true :=
  List.all_takeWhile

/-- The blanks behind a text are blank. -/
theorem all_isBlank_trailingBlanks (t : Text) : (trailingBlanks t).all isBlank = true := by
  rw [trailingBlanks, List.all_reverse]
  exact List.all_takeWhile

private theorem mem_trimStart {c : Char} {t : Text} (h : c ∈ t) (hc : isBlank c = false) :
    c ∈ trimStart t := by
  rw [← leadingBlanks_append_trimStart t] at h
  rcases List.mem_append.mp h with h | h
  · exact absurd (List.all_eq_true.mp (all_isBlank_leadingBlanks t) c h) (by simp [hc])
  · exact h

private theorem mem_trimEnd {c : Char} {t : Text} (h : c ∈ t) (hc : isBlank c = false) :
    c ∈ trimEnd t :=
  List.mem_reverse.mpr (mem_trimStart (List.mem_reverse.mpr h) hc)

/-- Trimming loses blanks only. -/
theorem mem_trim {c : Char} {t : Text} (h : c ∈ t) (hc : isBlank c = false) : c ∈ trim t :=
  mem_trimEnd (mem_trimStart h hc) hc

/-- A text that trimming empties is blank. -/
theorem all_isBlank_of_trim_eq_nil {t : Text} (h : trim t = []) : t.all isBlank = true := by
  apply List.all_eq_true.mpr
  intro c hc
  cases hblank : isBlank c with
  | true => rfl
  | false =>
    have hmem := mem_trim hc hblank
    rw [h] at hmem
    cases hmem

/-- The blanks at the end of a text with something visible are the same whatever stands in front. -/
theorem trailingBlanks_append_of_mem {c : Char} {t : Text} (h : c ∈ t) (hc : isBlank c = false)
    (s : Text) : trailingBlanks (s ++ t) = trailingBlanks t := by
  rw [trailingBlanks, List.reverse_append, takeWhile_append_of_mem (List.mem_reverse.mpr h) hc]
  rfl

/-- A text with something visible in it lies between its leading and its trailing blanks. -/
theorem leadingBlanks_append_trim_append_trailingBlanks {t : Text} (h : trim t ≠ []) :
    leadingBlanks t ++ trim t ++ trailingBlanks t = t := by
  have hstart : trimStart t ≠ [] := by
    intro hnil
    exact h (by rw [trim, hnil]; rfl)
  obtain ⟨c, rest, hrest⟩ := List.exists_cons_of_ne_nil hstart
  have hvisible : isBlank c = false := by
    have hhead := List.head_dropWhile_not isBlank hstart
    simp only [trimStart] at hrest
    simpa [hrest] using hhead
  have hmem : c ∈ trimStart t := by
    rw [hrest]
    exact List.mem_cons_self
  have hend : trailingBlanks t = trailingBlanks (trimStart t) := by
    rw [← trailingBlanks_append_of_mem hmem hvisible (leadingBlanks t),
      leadingBlanks_append_trimStart]
  rw [hend, List.append_assoc, trim, trimEnd_append_trailingBlanks, leadingBlanks_append_trimStart]

private theorem visible_of_head?_trimStart {t : Text} :
    ∀ c ∈ (trimStart t).head?, isBlank c = false := by
  intro c hc
  have hhead := List.head?_dropWhile_not isBlank t
  have hfirst : (t.dropWhile isBlank).head? = some c := hc
  simpa [hfirst] using hhead

/-- The first character that trimming leaves is visible. -/
theorem visible_of_head?_trim {t : Text} : ∀ c ∈ (trim t).head?, isBlank c = false := by
  intro c hc
  apply visible_of_head?_trimStart (t := t)
  have hfirst : (trim t).head? = some c := hc
  rw [← trimEnd_append_trailingBlanks (trimStart t), List.head?_append, ← trim, hfirst]
  rfl

/-- The last character that trimming leaves is visible. -/
theorem visible_of_getLast?_trim {t : Text} : ∀ c ∈ (trim t).getLast?, isBlank c = false := by
  intro c hc
  rw [trim, trimEnd, List.getLast?_reverse] at hc
  exact visible_of_head?_trimStart c hc

private theorem trimStart_append {blanks t : Text} (hblanks : blanks.all isBlank = true) :
    trimStart (blanks ++ t) = trimStart t :=
  List.dropWhile_append_of_pos (List.all_eq_true.mp hblanks)

private theorem trimStart_eq_self {t : Text} (hfirst : ∀ c ∈ t.head?, isBlank c = false) :
    trimStart t = t := by
  cases t with
  | nil => rfl
  | cons c t =>
    have hc : isBlank c = false := hfirst c rfl
    exact List.dropWhile_cons_of_neg (by simp [hc])

private theorem trimEnd_eq (t : Text) : trimEnd t = (trimStart t.reverse).reverse := rfl

/-- Between blanks, a text whose first and last characters are visible is what trimming leaves. -/
theorem trim_between {front t back : Text} (hfront : front.all isBlank = true)
    (hback : back.all isBlank = true) (hfirst : ∀ c ∈ t.head?, isBlank c = false)
    (hlast : ∀ c ∈ t.getLast?, isBlank c = false) : trim (front ++ t ++ back) = t := by
  have hend : trimEnd (t ++ back) = t := by
    have hreverse : ∀ c ∈ t.reverse.head?, isBlank c = false := by
      rwa [List.head?_reverse]
    rw [trimEnd_eq, List.reverse_append, trimStart_append (by rwa [List.all_reverse]),
      trimStart_eq_self hreverse, List.reverse_reverse]
  cases t with
  | nil =>
    have hnil : trimStart (front ++ [] ++ back) = [] := by
      rw [List.append_nil, trimStart_append hfront]
      exact List.dropWhile_eq_nil_iff.mpr (List.all_eq_true.mp hback)
    rw [trim, hnil]
    rfl
  | cons c t =>
    have hstart : trimStart (c :: t ++ back) = c :: t ++ back :=
      trimStart_eq_self (t := c :: t ++ back) hfirst
    rw [trim, List.append_assoc, trimStart_append hfront, hstart, hend]

end DocTemplate.Text
