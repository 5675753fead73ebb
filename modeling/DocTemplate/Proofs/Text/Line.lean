import DocTemplate.Fence
import Mathlib.Data.List.TakeWhile

/-!
# Lines of a text made of parts

How the last line, the first line and the list of lines of `s ++ t` come from those of `s` and `t`.
A text that ends its line cuts cleanly: what follows it starts a line of its own.
-/

namespace DocTemplate.Text

/-- A character that ends the run hides what follows it. -/
theorem takeWhile_append_of_mem {s : Text} {c : Char} {p : Char → Bool} (hc : c ∈ s)
    (hp : p c = false) (t : Text) : (s ++ t).takeWhile p = s.takeWhile p := by
  rw [List.takeWhile_append, if_neg]
  intro hlength
  have hall := List.takeWhile_eq_self_iff.mp
    ((List.takeWhile_prefix p).eq_of_length hlength) c hc
  simp [hp] at hall

/-- In a text without line feeds every character goes on with the line. -/
theorem forall_ne_of_not_mem {t : Text} (h : '\n' ∉ t) : ∀ c ∈ t, (c != '\n') = true := by
  intro c hc
  simp only [bne_iff_ne, ne_eq]
  rintro rfl
  exact h hc

/-- A run up to a line feed holds none. -/
theorem not_mem_takeWhile (t : Text) : '\n' ∉ t.takeWhile (· != '\n') := by
  intro h
  have hne := List.all_eq_true.mp List.all_takeWhile _ h
  simp at hne

/-! ## The last line -/

/-- A line feed hides everything in front of it from the last line. -/
theorem lastLine_append_of_mem {t : Text} (h : '\n' ∈ t) (s : Text) :
    lastLine (s ++ t) = lastLine t := by
  rw [lastLine, List.reverse_append, takeWhile_append_of_mem (List.mem_reverse.mpr h) (by simp)]
  rfl

/-- Without a line feed the last line goes on. -/
theorem lastLine_append_of_not_mem {t : Text} (h : '\n' ∉ t) (s : Text) :
    lastLine (s ++ t) = lastLine s ++ t := by
  have hrun := forall_ne_of_not_mem (t := t.reverse) (by rwa [List.mem_reverse])
  rw [lastLine, List.reverse_append, List.takeWhile_append_of_pos hrun, List.reverse_append,
    List.reverse_reverse]
  rfl

/-- The last line holds no line feed. -/
theorem not_mem_lastLine (t : Text) : '\n' ∉ lastLine t := by
  rw [lastLine, List.mem_reverse]
  exact not_mem_takeWhile t.reverse

/-- A text without a line feed is its own last line. -/
theorem lastLine_of_not_mem {t : Text} (h : '\n' ∉ t) : lastLine t = t := by
  simpa [lastLine] using lastLine_append_of_not_mem h []

/-! ## The first line -/

/-- Up to its first line feed a text is its first line, and the line feed if there is one. -/
theorem throughLineFeed_eq (t : Text) :
    throughLineFeed t = t.takeWhile (· != '\n') ++ if '\n' ∈ t then ['\n'] else [] := by
  induction t with
  | nil => rfl
  | cons c t ih =>
    rw [throughLineFeed]
    by_cases hc : c = '\n'
    · subst hc
      simp
    · rw [if_neg hc, ih, List.takeWhile_cons_of_pos (by simpa using hc), List.cons_append]
      simp [Ne.symm hc]

/-- A text without a line feed is its own first line. -/
theorem throughLineFeed_of_not_mem {t : Text} (h : '\n' ∉ t) : throughLineFeed t = t := by
  have htake : t.takeWhile (· != '\n') = t :=
    List.takeWhile_eq_self_iff.mpr (forall_ne_of_not_mem h)
  rw [throughLineFeed_eq, htake, if_neg h, List.append_nil]

/-- What stands up to the first line feed is not changed by what follows it. -/
theorem throughLineFeed_append_of_mem {s : Text} (h : '\n' ∈ s) (t : Text) :
    throughLineFeed (s ++ t) = throughLineFeed s := by
  rw [throughLineFeed_eq, throughLineFeed_eq, takeWhile_append_of_mem h (by simp),
    if_pos (List.mem_append_left t h), if_pos h]

/-- What stands up to the first line feed is the start of a text. -/
theorem isPrefix_throughLineFeed (t : Text) : throughLineFeed t <+: t := by
  induction t with
  | nil => exact List.prefix_rfl
  | cons c t ih =>
    rw [throughLineFeed]
    split
    · exact ⟨t, rfl⟩
    · exact (List.prefix_cons_inj c).mpr ih

/-- If there is a line feed, the first one is the last character of what stands up to it. -/
theorem getLast?_throughLineFeed {t : Text} (h : '\n' ∈ t) :
    (throughLineFeed t).getLast? = some '\n' := by
  rw [throughLineFeed_eq, if_pos h, List.getLast?_concat]

/-- Only the last character of the first line may be a line feed. -/
theorem not_mem_dropLast_throughLineFeed (t : Text) : '\n' ∉ (throughLineFeed t).dropLast := by
  rw [throughLineFeed_eq]
  split
  · rw [List.dropLast_concat]
    exact not_mem_takeWhile t
  · rw [List.append_nil]
    exact fun h => not_mem_takeWhile t ((List.dropLast_sublist _).mem h)

/-- What stands up to the first line feed is the line and the line feed. -/
theorem mem_throughLineFeed {c : Char} {t : Text} (h : c ∈ throughLineFeed t) :
    c = '\n' ∨ c ∈ t.takeWhile (· != '\n') := by
  rw [throughLineFeed_eq, List.mem_append] at h
  refine h.symm.imp_left fun hlast => ?_
  split at hlast
  · exact List.mem_singleton.mp hlast
  · cases hlast

/-! ## Texts that end their line -/

/-- The text is empty or its last character is a line feed. -/
def EndsLine (t : Text) : Prop := t = [] ∨ t.getLast? = some '\n'

/-- Every text but the empty one that ends its line holds a line feed. -/
theorem EndsLine.mem {t : Text} (h : EndsLine t) (hne : t ≠ []) : '\n' ∈ t :=
  List.mem_of_getLast? (h.resolve_left hne)

/-- What is behind a line feed or any other part ends its line if the whole does. -/
theorem EndsLine.of_append {s t : Text} (h : EndsLine (s ++ t)) : EndsLine t := by
  rcases List.eq_nil_or_concat t with rfl | ⟨t', c, rfl⟩
  · exact Or.inl rfl
  · rcases h with h | h
    · simp at h
    · exact Or.inr (by simpa using h)

/-- A text that ends its line has an empty last line. -/
theorem EndsLine.lastLine_eq_nil {t : Text} (h : EndsLine t) : lastLine t = [] := by
  rcases h with rfl | h
  · rfl
  · obtain ⟨s, rfl⟩ := List.getLast?_eq_some_iff.mp h
    rw [lastLine_append_of_mem (by simp)]
    rfl

/-- Of a text that ends its line, what is left behind its first character ends its line too. -/
theorem EndsLine.of_cons {c : Char} {t : Text} (h : EndsLine (c :: t)) : EndsLine t :=
  EndsLine.of_append (s := [c]) h

/-- Behind a character that is no line feed, a text that ends its line still holds one. -/
theorem EndsLine.mem_of_append_cons {s t : Text} {c : Char} (h : EndsLine (s ++ c :: t))
    (hc : c ≠ '\n') : '\n' ∈ t :=
  (List.mem_cons.mp (h.of_append.mem (by simp))).resolve_left (Ne.symm hc)

/-- A text that is not empty ends the line of what is in front of it if it ends its own. -/
theorem EndsLine.append_of_mem {t : Text} (h : EndsLine t) (hmem : '\n' ∈ t) (s : Text) :
    EndsLine (s ++ t) := by
  have hlast : t.getLast? = some '\n' := h.resolve_left (List.ne_nil_of_mem hmem)
  right
  rw [List.getLast?_append, hlast, Option.some_or]

/-- Behind a text that ends its line the last line is that of what follows. -/
theorem EndsLine.lastLine_append {s : Text} (h : EndsLine s) (t : Text) :
    lastLine (s ++ t) = lastLine t := by
  by_cases ht : '\n' ∈ t
  · exact lastLine_append_of_mem ht s
  · rw [lastLine_append_of_not_mem ht, h.lastLine_eq_nil, lastLine_of_not_mem ht, List.nil_append]

/-- What stands in front of the last line ends its line. -/
theorem endsLine_beforeLastLine (t : Text) : EndsLine (beforeLastLine t) := by
  have hlast := List.head?_dropWhile_not (· != '\n') t.reverse
  rw [← List.getLast?_reverse, ← beforeLastLine] at hlast
  cases hend : (beforeLastLine t).getLast? with
  | none => exact Or.inl (List.getLast?_eq_none_iff.mp hend)
  | some c =>
    rw [hend] at hlast
    obtain rfl : c = '\n' := by simpa using hlast
    exact Or.inr hend

/-- What is not on the last line stands in front of it. -/
theorem beforeLastLine_append_of_eq {s t : Text} (h : lastLine (s ++ t) = lastLine t) :
    beforeLastLine (s ++ t) = s ++ beforeLastLine t := by
  have hsplit : beforeLastLine (s ++ t) ++ lastLine (s ++ t) = s ++ t :=
    beforeLastLine_append_lastLine (s ++ t)
  rw [h] at hsplit
  apply List.append_cancel_right
  rw [hsplit, List.append_assoc, beforeLastLine_append_lastLine]

/-- A text that ends its line stands in front of the last line of what follows. -/
theorem EndsLine.beforeLastLine_append {s : Text} (h : EndsLine s) (t : Text) :
    beforeLastLine (s ++ t) = s ++ beforeLastLine t :=
  beforeLastLine_append_of_eq (h.lastLine_append t)

/-! ## The list of lines -/

@[simp] theorem lines_nil : lines [] = [[]] := rfl

@[simp] theorem lines_lineFeed_cons (t : Text) : lines ('\n' :: t) = [] :: lines t := by
  simp [lines, splitOn, splitWhere]

/-- Any other character goes in front of the first line. -/
theorem lines_cons_of_ne {c : Char} (h : c ≠ '\n') (t : Text) :
    lines (c :: t) = (lines t).modifyHead (c :: ·) := by
  simp [lines, splitOn, splitWhere, h]

/-- There is always a first line. -/
theorem lines_ne_nil (t : Text) : lines t ≠ [] := splitWhere_ne_nil _ t

/-- A text starts with its first line. -/
theorem prefix_of_lines_eq_cons {t line : Text} {ls : List Text} (h : lines t = line :: ls) :
    line <+: t := by
  induction t generalizing line ls with
  | nil =>
    rw [lines_nil, List.cons_eq_cons] at h
    exact h.1 ▸ List.nil_prefix
  | cons c t ih =>
    by_cases hc : c = '\n'
    · subst hc
      rw [lines_lineFeed_cons, List.cons_eq_cons] at h
      rw [← h.1]
      exact List.nil_prefix
    · obtain ⟨l, ls', hl⟩ := List.exists_cons_of_ne_nil (lines_ne_nil t)
      rw [lines_cons_of_ne hc, hl, List.modifyHead_cons, List.cons_eq_cons] at h
      rw [← h.1]
      exact (List.prefix_cons_inj c).mpr (ih hl)

/-- There is one line more than there are line feeds. -/
@[simp] theorem length_lines (t : Text) : (lines t).length = t.count '\n' + 1 := by
  induction t with
  | nil => rfl
  | cons c t ih =>
    by_cases hc : c = '\n'
    · subst hc
      simp [ih]
    · rw [lines_cons_of_ne hc, List.length_modifyHead, ih, List.count_cons_of_ne hc]

/-- Behind a text that ends its line the lines start anew. -/
theorem lines_append {s : Text} (h : EndsLine s) (t : Text) :
    lines (s ++ t) = (lines s).dropLast ++ lines t := by
  induction s with
  | nil => rfl
  | cons c s ih =>
    by_cases hc : c = '\n'
    · subst hc
      rw [List.cons_append, lines_lineFeed_cons, lines_lineFeed_cons, ih h.of_cons,
        List.dropLast_cons_of_ne_nil (lines_ne_nil s), List.cons_append]
    · have hne : s ≠ [] := by
        rintro rfl
        simpa [Ne.symm hc] using h.mem
      have hmem : 0 < s.count '\n' := List.count_pos_iff.mpr (h.of_cons.mem hne)
      have hlength := length_lines s
      rw [List.cons_append, lines_cons_of_ne hc, lines_cons_of_ne hc, ih h.of_cons]
      match hlines : lines s with
      | [] => exact absurd hlines (lines_ne_nil s)
      | [l] => simp [hlines] at hlength; omega
      | l :: l' :: ls => rfl

/-- The last line of a text that ends its line is empty. -/
theorem EndsLine.lines_eq {s : Text} (h : EndsLine s) :
    lines s = (lines s).dropLast ++ [[]] := by
  simpa using lines_append h []

end DocTemplate.Text
