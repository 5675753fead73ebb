import DocTemplate.Proofs.Text.Blank

/-!
# Line feeds behind carriage returns

In some texts every line feed stands directly behind a carriage return. Such texts may be put one
behind the other, and they may be cut wherever the part behind the cut does not start with a line
feed. No cut that trimming or the search for a line makes separates a line feed from its carriage
return: both are blank, and a line goes through its line feed.
-/

namespace DocTemplate.Text

/-- Every line feed stands directly behind a carriage return. -/
def IsCrlf (t : Text) : Prop :=
  ∀ front back, t = front ++ '\n' :: back → front.getLast? = some '\r'

/-- Of a text without line feeds nothing is asked. -/
theorem isCrlf_of_not_mem {t : Text} (h : '\n' ∉ t) : IsCrlf t := by
  rintro front back rfl
  exact absurd (List.mem_append_right front List.mem_cons_self) h

theorem isCrlf_nil : IsCrlf [] := isCrlf_of_not_mem List.not_mem_nil

namespace IsCrlf

variable {s t : Text}

/-- The text does not start with a line feed. -/
theorem head?_ne (h : IsCrlf t) : t.head? ≠ some '\n' := by
  intro hhead
  obtain ⟨back, rfl⟩ := List.head?_eq_some_iff.mp hhead
  cases h [] back rfl

/-- Texts may be put one behind the other. -/
theorem append (hs : IsCrlf s) (ht : IsCrlf t) : IsCrlf (s ++ t) := by
  intro front back heq
  rcases List.append_eq_append_iff.mp heq with ⟨mid, rfl, hmid⟩ | ⟨mid, rfl, hmid⟩
  · rw [List.getLast?_append, ht mid back hmid, Option.some_or]
  · cases mid with
    | nil => exact absurd (congrArg List.head? hmid).symm ht.head?_ne
    | cons c mid =>
      obtain ⟨rfl, -⟩ := List.cons_eq_cons.mp hmid
      exact hs front mid rfl

/-- A first part is as good as the whole. -/
theorem of_append (h : IsCrlf (s ++ t)) : IsCrlf s := by
  rintro front back rfl
  exact h front (back ++ t) (by rw [List.append_assoc, List.cons_append])

/-- What follows a cut is as good as the whole, unless the cut is in front of a line feed. -/
theorem of_append_of_head? (h : IsCrlf (s ++ t)) (ht : t.head? ≠ some '\n') : IsCrlf t := by
  rintro front back rfl
  have hwhole := h (s ++ front) back (List.append_assoc ..).symm
  rcases List.eq_nil_or_concat front with rfl | ⟨front, c, rfl⟩
  · exact absurd rfl ht
  · simpa [List.getLast?_append] using hwhole

/-- No line feed follows a part that does not end with a carriage return. -/
theorem behind (h : IsCrlf (s ++ t)) (hs : s.getLast? ≠ some '\r') : IsCrlf t := by
  apply h.of_append_of_head?
  intro hhead
  obtain ⟨back, rfl⟩ := List.head?_eq_some_iff.mp hhead
  exact hs (h s back rfl)

theorem of_prefix (h : IsCrlf t) (hs : s <+: t) : IsCrlf s := by
  obtain ⟨back, rfl⟩ := hs
  exact h.of_append

/-- Many texts may be put one behind the other. -/
theorem flatMap {α : Type} {f : α → Text} {xs : List α} (h : ∀ x ∈ xs, IsCrlf (f x)) :
    IsCrlf (xs.flatMap f) := by
  induction xs with
  | nil => exact isCrlf_nil
  | cons x xs ih =>
    obtain ⟨hx, hxs⟩ := List.forall_mem_cons.mp h
    exact hx.append (ih hxs)

/-! ## Blanks -/

theorem leadingBlanks (h : IsCrlf t) : IsCrlf t.leadingBlanks :=
  h.of_prefix (List.takeWhile_prefix isBlank)

/-- Without its leading blanks a text starts with a visible character, so with no line feed. -/
theorem trimStart (h : IsCrlf t) : IsCrlf t.trimStart := by
  rw [← leadingBlanks_append_trimStart t] at h
  apply h.of_append_of_head?
  intro hhead
  have hvisible := List.head?_dropWhile_not isBlank t
  rw [Text.trimStart] at hhead
  rw [hhead] at hvisible
  exact absurd hvisible (by decide)

theorem trimEnd (h : IsCrlf t) : IsCrlf t.trimEnd := by
  rw [← trimEnd_append_trailingBlanks t] at h
  exact h.of_append

/-- The trailing blanks follow a visible character. -/
theorem trailingBlanks (h : IsCrlf t) : IsCrlf t.trailingBlanks := by
  rw [← trimEnd_append_trailingBlanks t] at h
  apply h.behind
  intro hlast
  have hvisible := List.head?_dropWhile_not isBlank t.reverse
  rw [Text.trimEnd, List.getLast?_reverse] at hlast
  rw [hlast] at hvisible
  exact absurd hvisible (by decide)

theorem trim (h : IsCrlf t) : IsCrlf t.trim := h.trimStart.trimEnd

/-! ## Lines -/

theorem throughLineFeed (h : IsCrlf t) : IsCrlf t.throughLineFeed :=
  h.of_prefix (isPrefix_throughLineFeed t)

theorem beforeLastLine (h : IsCrlf t) : IsCrlf t.beforeLastLine := by
  rw [← beforeLastLine_append_lastLine t] at h
  exact h.of_append

/-- What is left behind the first line follows its line feed, if there is one. -/
theorem drop_throughLineFeed (h : IsCrlf t) : IsCrlf (t.drop t.throughLineFeed.length) := by
  obtain ⟨rest, hrest⟩ := isPrefix_throughLineFeed t
  have hdrop : (t.throughLineFeed ++ rest).drop t.throughLineFeed.length = rest :=
    List.drop_left
  rw [hrest] at hdrop
  rw [hdrop]
  by_cases hmem : '\n' ∈ t
  · rw [← hrest] at h
    apply h.behind
    rw [getLast?_throughLineFeed hmem]
    decide
  · apply isCrlf_of_not_mem
    intro hrestMem
    rw [← hrest] at hmem
    exact hmem (List.mem_append_right _ hrestMem)

theorem dropSuffix (h : IsCrlf t) (suffix : Text) : IsCrlf (dropSuffix suffix t) := by
  unfold Text.dropSuffix
  split
  · exact h.of_prefix (List.take_prefix _ t)
  · exact h

end IsCrlf

/-- One more character may be anything but a line feed that does not follow a carriage return. -/
theorem isCrlf_concat_iff {t : Text} {c : Char} :
    IsCrlf (t ++ [c]) ↔ IsCrlf t ∧ (c = '\n' → t.getLast? = some '\r') := by
  constructor
  · intro h
    refine ⟨h.of_append, ?_⟩
    rintro rfl
    exact h t [] rfl
  · rintro ⟨ht, hc⟩ front back heq
    rcases List.eq_nil_or_concat back with rfl | ⟨back, d, rfl⟩
    · obtain ⟨rfl, hlast⟩ := List.append_inj' heq rfl
      exact hc (List.cons_eq_cons.mp hlast).1
    · rw [List.concat_eq_append, ← List.cons_append, ← List.append_assoc] at heq
      exact ht front back (List.append_inj' heq rfl).1

/-- Whether every line feed stands behind a carriage return; `after` says whether the text itself
does. -/
def isCrlfFrom (after : Bool) : Text → Bool
  | [] => true
  | c :: t => (c != '\n' || after) && isCrlfFrom (c == '\r') t

/-- Behind a part the check goes on with whether that part ends with a carriage return. -/
theorem isCrlf_append_iff {s t : Text} :
    IsCrlf (s ++ t) ↔ IsCrlf s ∧ isCrlfFrom (s.getLast? == some '\r') t = true := by
  induction t generalizing s with
  | nil => simp [isCrlfFrom]
  | cons c t ih =>
    have hlast : (s ++ [c]).getLast? = some c := by simp
    have hfirst : s ++ c :: t = (s ++ [c]) ++ t := by simp
    rw [hfirst, ih, isCrlf_concat_iff, hlast, isCrlfFrom, Bool.and_eq_true, and_assoc]
    by_cases hc : c = '\n' <;> simp [hc]

/-- The property is decided in one pass. -/
instance (t : Text) : Decidable (IsCrlf t) :=
  decidable_of_iff (isCrlfFrom false t = true) <| by
    have hwhole := isCrlf_append_iff (s := []) (t := t)
    rw [List.nil_append] at hwhole
    simp [hwhole, isCrlf_nil]

end DocTemplate.Text
