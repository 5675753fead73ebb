import DocTemplate.Proofs.Text.Bytes
import Mathlib.Data.List.Induction

/-!
# Where the lines of a text start

The first line starts with the text and every other one behind a line feed. So the table of line
starts is ascending, and the line that it gives for a byte is told by the line feeds in front of
that byte.
-/

namespace DocTemplate.Text

/-- The offsets behind the line feeds of a text that starts at `offset`. -/
def breaksFrom (offset : Nat) : Text → List Nat
  | [] => []
  | c :: t =>
    if c = '\n' then (offset + 1) :: breaksFrom (offset + 1) t
    else breaksFrom (offset + c.utf8Size) t

@[simp] theorem breaksFrom_nil (offset : Nat) : breaksFrom offset [] = [] := rfl

@[simp] theorem breaksFrom_lineFeed_cons (offset : Nat) (t : Text) :
    breaksFrom offset ('\n' :: t) = (offset + 1) :: breaksFrom (offset + 1) t := if_pos rfl

/-- Any other character takes its bytes. -/
theorem breaksFrom_cons_of_ne {c : Char} (h : c ≠ '\n') (offset : Nat) (t : Text) :
    breaksFrom offset (c :: t) = breaksFrom (offset + c.utf8Size) t := if_neg h

/-- There is one offset for each line feed. -/
@[simp] theorem length_breaksFrom (offset : Nat) (t : Text) :
    (breaksFrom offset t).length = t.count '\n' := by
  induction t generalizing offset with
  | nil => rfl
  | cons c t ih =>
    by_cases hc : c = '\n'
    · subst hc
      rw [breaksFrom_lineFeed_cons, List.length_cons, ih, List.count_cons_self]
    · rw [breaksFrom_cons_of_ne hc, ih, List.count_cons_of_ne hc]

/-- The offsets follow texts piece by piece. -/
theorem breaksFrom_append (offset : Nat) (s t : Text) :
    breaksFrom offset (s ++ t) = breaksFrom offset s ++ breaksFrom (offset + utf8Size s) t := by
  induction s generalizing offset with
  | nil => rfl
  | cons c s ih =>
    by_cases hc : c = '\n'
    · subst hc
      have hsize : Char.utf8Size '\n' = 1 := rfl
      rw [List.cons_append, breaksFrom_lineFeed_cons, breaksFrom_lineFeed_cons, ih, utf8Size_cons,
        hsize, Nat.add_assoc, List.cons_append]
    · rw [List.cons_append, breaksFrom_cons_of_ne hc, breaksFrom_cons_of_ne hc, ih, utf8Size_cons,
        Nat.add_assoc]

/-- A line feed ends behind its first byte and within its text. -/
theorem bounds_of_mem_breaksFrom {offset b : Nat} {t : Text} (h : b ∈ breaksFrom offset t) :
    offset < b ∧ b ≤ offset + utf8Size t := by
  induction t generalizing offset with
  | nil => cases h
  | cons c t ih =>
    have hpos := c.utf8Size_pos
    rw [utf8Size_cons]
    by_cases hc : c = '\n'
    · subst hc
      have hsize : Char.utf8Size '\n' = 1 := rfl
      rw [breaksFrom_lineFeed_cons] at h
      rcases List.mem_cons.mp h with rfl | h
      · omega
      · have := ih h
        omega
    · rw [breaksFrom_cons_of_ne hc] at h
      have := ih h
      omega

/-- No line starts within the first character. -/
theorem le_of_mem_breaksFrom_cons {offset b : Nat} {c : Char} {t : Text}
    (h : b ∈ breaksFrom offset (c :: t)) : offset + c.utf8Size ≤ b := by
  by_cases hc : c = '\n'
  · subst hc
    exact (bounds_of_mem_breaksFrom h).1
  · rw [breaksFrom_cons_of_ne hc] at h
    exact (bounds_of_mem_breaksFrom h).1.le

/-! ## The table of line starts -/

private theorem lineStartsFrom_lines (offset : Nat) (t : Text) :
    lineStartsFrom offset (lines t) = offset :: breaksFrom offset t := by
  induction t generalizing offset with
  | nil => rfl
  | cons c t ih =>
    by_cases hc : c = '\n'
    · subst hc
      rw [lines_lineFeed_cons, lineStartsFrom, ih, breaksFrom_lineFeed_cons, utf8Size_nil,
        Nat.add_zero]
    · obtain ⟨l, ls, hlines⟩ := List.exists_cons_of_ne_nil (lines_ne_nil t)
      have hrest := ih (offset + c.utf8Size)
      rw [hlines, lineStartsFrom, List.cons_eq_cons] at hrest
      rw [lines_cons_of_ne hc, hlines, List.modifyHead_cons, lineStartsFrom, utf8Size_cons,
        ← Nat.add_assoc, hrest.2, breaksFrom_cons_of_ne hc]

/-- Lines start with the text and behind its line feeds. -/
theorem lineStarts_eq (t : Text) : lineStarts t = 0 :: breaksFrom 0 t := lineStartsFrom_lines 0 t

/-- Of the lines up to a byte the last one holds it: if no line behind `front` starts up to the
byte, its line is the last one of `front`. -/
theorem lineIndex_append {front back : Text} {offset : Nat} (hfront : utf8Size front ≤ offset)
    (hback : ∀ b ∈ breaksFrom (utf8Size front) back, offset < b) :
    lineIndex (front ++ back) offset = front.count '\n' := by
  have hbelow : ∀ b ∈ 0 :: breaksFrom 0 front, decide (b ≤ offset) = true := by
    intro b hb
    rcases List.mem_cons.mp hb with rfl | hb
    · simp
    · have := (bounds_of_mem_breaksFrom hb).2
      simpa using by omega
  have habove : (breaksFrom (utf8Size front) back).takeWhile (· ≤ offset) = [] := by
    apply List.takeWhile_eq_nil_iff.mpr
    intro hpos
    simpa using hback _ (List.getElem_mem hpos)
  rw [lineIndex, lineStarts_eq, breaksFrom_append, Nat.zero_add, ← List.cons_append,
    List.takeWhile_append_of_pos hbelow, habove, List.append_nil, List.length_cons,
    length_breaksFrom, Nat.add_sub_cancel]

/-- The line of the last character of a text starts behind its last line feed. -/
theorem getD_lineStarts (front back : Text) :
    (lineStarts (front ++ back)).getD (front.count '\n') 0 = utf8Size (beforeLastLine front) := by
  have hlast : (0 :: breaksFrom 0 front)[front.count '\n']? =
      some (utf8Size (beforeLastLine front)) := by
    induction front using List.reverseRecOn with
    | nil => rfl
    | append_singleton front c ih =>
      rw [breaksFrom_append, ← List.cons_append]
      by_cases hc : c = '\n'
      · subst hc
        have hsize : Char.utf8Size '\n' = 1 := rfl
        simp [beforeLastLine, List.count_append, hsize]
      · have hbefore : beforeLastLine (front ++ [c]) = beforeLastLine front := by
          simp [beforeLastLine, hc]
        rw [breaksFrom_cons_of_ne hc, breaksFrom_nil, List.append_nil, List.count_append,
          List.count_cons_of_ne hc, List.count_nil, Nat.add_zero, hbefore]
        exact ih
  rw [lineStarts_eq, breaksFrom_append, ← List.cons_append, List.getD_eq_getElem?_getD,
    List.getElem?_append_left (by simp), hlast, Option.getD_some]

/-- A byte is on the line that the line feeds in front of its character lead to. -/
theorem lineIndex_of_char {before rest : Text} {c : Char} {offset : Nat}
    (hfirst : utf8Size before ≤ offset) (hlast : offset < utf8Size before + c.utf8Size) :
    lineIndex (before ++ c :: rest) offset = before.count '\n' :=
  lineIndex_append hfirst fun _ hb => hlast.trans_le (le_of_mem_breaksFrom_cons hb)

end DocTemplate.Text
