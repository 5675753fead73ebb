import DocTemplate.Problem
import DocTemplate.Proofs.Text.Line
import Mathlib.Data.List.Induction

/-!
# Locations further down

The location behind a text is told by its line feeds and by the characters of its last line. What
stands behind some whole lines has its locations as many lines further down, in the same columns.
Reading on does not depend on how far down it starts.
-/

namespace DocTemplate

open Text

namespace Location

/-- The same column, `n` lines further down. -/
def down (n : Nat) (l : Location) : Location := ⟨l.line + n, l.column⟩

/-- Reading a character starts further down as it does above. -/
theorem advance_down (n : Nat) (l : Location) (c : Char) :
    (l.down n).advance c = (l.advance c).down n := by
  unfold advance down
  split
  · rw [Nat.add_right_comm]
  · rfl

/-- Reading a text starts further down as it does above. -/
theorem after_down (n : Nat) (l : Location) (t : Text) :
    (l.down n).after t = (l.after t).down n := by
  induction t generalizing l with
  | nil => rfl
  | cons c t ih => rw [after_cons, after_cons, advance_down, ih]

/-- Every line feed leads one line down. -/
theorem line_after (l : Location) (t : Text) : (l.after t).line = l.line + t.count '\n' := by
  induction t generalizing l with
  | nil => rfl
  | cons c t ih =>
    rw [after_cons, ih, advance]
    by_cases hc : c = '\n'
    · subst hc
      rw [if_pos rfl, List.count_cons_self, Nat.add_assoc, Nat.add_comm 1]
    · rw [if_neg hc, List.count_cons_of_ne hc]

/-- Behind a text the line is one more than its line feeds, and the column one more than the
characters of its last line. -/
theorem start_after (t : Text) :
    start.after t = ⟨t.count '\n' + 1, (lastLine t).length + 1⟩ := by
  induction t using List.reverseRecOn with
  | nil => rfl
  | append_singleton t c ih =>
    rw [after_append, ih, after_cons, after_nil, advance]
    by_cases hc : c = '\n'
    · subst hc
      simp [lastLine, List.count_append]
    · simp [lastLine, List.count_append, hc]

/-- The location of what stands behind a text: lines and characters are counted from one. -/
def IsBehind (l : Location) (before : Text) : Prop :=
  l.line = before.count '\n' + 1 ∧ l.column = (lastLine before).length + 1

/-- Just where reading a text leads to is the location behind it. -/
theorem isBehind_iff {l : Location} {before : Text} :
    l.IsBehind before ↔ l = start.after before := by
  rw [start_after, IsBehind, Location.mk.injEq]

/-- Reading a text leads behind it. -/
theorem isBehind_after (before : Text) : (start.after before).IsBehind before :=
  isBehind_iff.mpr rfl

/-- Reading two texts one behind the other leads behind both of them. -/
theorem isBehind_after_after (front lead : Text) :
    ((start.after front).after lead).IsBehind (front ++ lead) := by
  rw [← after_append]
  exact isBehind_after (front ++ lead)

/-- Whole lines lead from the start of a line to the start of a line. -/
theorem after_of_endsLine {t : Text} (h : EndsLine t) {l : Location} (hl : l.column = 1) :
    l.after t = l.down (t.count '\n') := by
  have hcolumn : (l.after t).column = l.column := by
    rcases h with rfl | h
    · rfl
    · obtain ⟨s, rfl⟩ := List.getLast?_eq_some_iff.mp h
      rw [after_append, after_cons, after_nil, advance, if_pos rfl, hl]
  calc l.after t = ⟨(l.after t).line, (l.after t).column⟩ := rfl
    _ = l.down (t.count '\n') := by rw [line_after, hcolumn, down]

end Location

/-- The same failure, `n` lines further down. -/
def Failure.down (n : Nat) (f : Failure) : Failure := ⟨f.location.down n, f.cause⟩

end DocTemplate
