import DocTemplate.Layout
import DocTemplate.Proofs.Text.Blank
import Mathlib.Data.List.DropRight

/-!
# Blank lines at the end of a text

A text is cut into lines, each with the line feed that ends it, and loses its longest run of blank
lines at the end. This is what stacking does to an iteration: there the cut is found by trimming
all blanks at the end and putting back the rest of the last visible line.
-/

namespace DocTemplate.Text

/-- The lines of a text, each with the line feed that ends it; a line feed at the end starts no
further line. -/
def linesWithEnds : Text → List Text
  | [] => []
  | c :: t =>
    if c = '\n' then [c] :: linesWithEnds t
    else match linesWithEnds t with
      | [] => [[c]]
      | line :: rest => (c :: line) :: rest

/-- A text without its blank lines at the end. -/
def withoutBlankEnd (t : Text) : Text :=
  ((linesWithEnds t).rdropWhile fun line => line.all isBlank).flatten

@[simp] theorem linesWithEnds_nil : linesWithEnds [] = [] := rfl

@[simp] theorem linesWithEnds_lineFeed_cons (t : Text) :
    linesWithEnds ('\n' :: t) = ['\n'] :: linesWithEnds t := by
  rw [linesWithEnds, if_pos rfl]

/-- Any other character joins the first line. -/
theorem linesWithEnds_cons_of_ne {c : Char} (hc : c ≠ '\n') (t : Text) :
    linesWithEnds (c :: t) =
      match linesWithEnds t with
      | [] => [[c]]
      | line :: rest => (c :: line) :: rest := by
  rw [linesWithEnds, if_neg hc]

/-- The lines with their line feeds are the text. -/
@[simp] theorem flatten_linesWithEnds (t : Text) : (linesWithEnds t).flatten = t := by
  induction t with
  | nil => rfl
  | cons c t ih =>
    by_cases hc : c = '\n'
    · subst hc
      rw [linesWithEnds_lineFeed_cons, List.flatten_cons, ih, List.singleton_append]
    · rw [linesWithEnds_cons_of_ne hc]
      cases hlines : linesWithEnds t with
      | nil =>
        rw [hlines] at ih
        rw [← ih]
        rfl
      | cons line rest =>
        rw [hlines] at ih
        rw [← ih]
        rfl

/-- The lines are blank exactly if the text is. -/
theorem all_linesWithEnds (t : Text) :
    ((linesWithEnds t).all fun line => line.all isBlank) = t.all isBlank := by
  rw [← List.all_flatten, flatten_linesWithEnds]

/-- The first line goes through the first line feed. -/
theorem linesWithEnds_eq_cons {t line : Text} {rest : List Text}
    (h : linesWithEnds t = line :: rest) : line = throughLineFeed t := by
  induction t generalizing line rest with
  | nil => cases h
  | cons c t ih =>
    by_cases hc : c = '\n'
    · subst hc
      rw [linesWithEnds_lineFeed_cons] at h
      rw [throughLineFeed, if_pos rfl]
      exact (List.cons_eq_cons.mp h).1.symm
    · rw [linesWithEnds_cons_of_ne hc] at h
      rw [throughLineFeed, if_neg hc]
      cases hlines : linesWithEnds t with
      | nil =>
        rw [hlines] at h
        have ht : t = [] := by
          rw [← flatten_linesWithEnds t, hlines]
          rfl
        rw [ht]
        exact (List.cons_eq_cons.mp h).1.symm
      | cons line' rest' =>
        rw [hlines] at h
        rw [← ih hlines]
        exact (List.cons_eq_cons.mp h).1.symm

/-- A first line is cut off first. -/
theorem linesWithEnds_append {l t : Text} (hne : l ≠ []) (hline : '\n' ∉ l.dropLast)
    (hlast : l.getLast? = some '\n' ∨ t = []) :
    linesWithEnds (l ++ t) = l :: linesWithEnds t := by
  induction l with
  | nil => exact absurd rfl hne
  | cons c l ih =>
    cases l with
    | nil =>
      by_cases hc : c = '\n'
      · subst hc
        exact linesWithEnds_lineFeed_cons t
      · obtain rfl : t = [] := hlast.resolve_left (by simpa using hc)
        exact linesWithEnds_cons_of_ne hc []
    | cons d l =>
      rw [List.dropLast_cons_of_ne_nil (List.cons_ne_nil d l), List.mem_cons, not_or] at hline
      rw [List.getLast?_cons_cons] at hlast
      rw [List.cons_append, linesWithEnds_cons_of_ne (Ne.symm hline.1),
        ih (List.cons_ne_nil d l) hline.2 hlast]

/-! ## Dropping from the end -/

section Drop

variable {α : Type} {p : α → Bool}

private theorem rdropWhile_cons_of_all {xs : List α} (h : xs.all p = true) (x : α) :
    (x :: xs).rdropWhile p = if p x then [] else [x] := by
  have hdrop : xs.reverse.dropWhile p = [] :=
    List.dropWhile_eq_nil_iff.mpr fun y hy => List.all_eq_true.mp h y (List.mem_reverse.mp hy)
  rw [List.rdropWhile, List.reverse_cons, List.dropWhile_append, hdrop, List.isEmpty_nil,
    if_pos rfl]
  exact List.rdropWhile_singleton p x

private theorem rdropWhile_cons_of_not_all {xs : List α} (h : xs.all p = false) (x : α) :
    (x :: xs).rdropWhile p = x :: xs.rdropWhile p := by
  have hdrop : (xs.reverse.dropWhile p).isEmpty = false := by
    rw [Bool.eq_false_iff]
    intro hempty
    have hall := List.dropWhile_eq_nil_iff.mp (List.isEmpty_iff.mp hempty)
    rw [Bool.eq_false_iff] at h
    exact h (List.all_eq_true.mpr fun y hy => hall y (List.mem_reverse.mpr hy))
  rw [List.rdropWhile, List.reverse_cons, List.dropWhile_append, hdrop, if_neg (by simp),
    List.reverse_append]
  rfl

end Drop

private theorem trimEnd_eq_nil_iff (t : Text) : trimEnd t = [] ↔ t.all isBlank = true :=
  List.rdropWhile_eq_nil_iff.trans List.all_eq_true.symm

/-- In front of blanks a character stays with the line that it is on, if it is visible. -/
theorem dropTrailingBlankLines_cons_of_blank {t : Text} (h : t.all isBlank = true) (c : Char) :
    dropTrailingBlankLines (c :: t) = if isBlank c then [] else c :: throughLineFeed t := by
  have htrim : trimEnd (c :: t) = if isBlank c then [] else [c] := rdropWhile_cons_of_all h c
  have hsplit := trimEnd_append_trailingBlanks (c :: t)
  rw [dropTrailingBlankLines]
  cases hc : isBlank c with
  | true =>
    rw [hc, if_pos rfl] at htrim
    rw [if_pos htrim, if_pos rfl]
  | false =>
    rw [hc, if_neg (by simp)] at htrim
    rw [htrim, List.singleton_append] at hsplit
    rw [htrim, if_neg (by simp), (List.cons_eq_cons.mp hsplit).2, if_neg (by simp)]
    rfl

/-- In front of something visible every character stays. -/
theorem dropTrailingBlankLines_cons_of_visible {t : Text} (h : t.all isBlank = false) (c : Char) :
    dropTrailingBlankLines (c :: t) = c :: dropTrailingBlankLines t := by
  have htrim : trimEnd (c :: t) = c :: trimEnd t := rdropWhile_cons_of_not_all h c
  have hne : trimEnd t ≠ [] := by
    intro hnil
    rw [trimEnd_eq_nil_iff, h] at hnil
    cases hnil
  have hsplit := trimEnd_append_trailingBlanks (c :: t)
  rw [htrim, List.cons_append, List.cons_eq_cons] at hsplit
  have hblanks : trailingBlanks (c :: t) = trailingBlanks t :=
    List.append_cancel_left (hsplit.2.trans (trimEnd_append_trailingBlanks t).symm)
  rw [dropTrailingBlankLines, dropTrailingBlankLines, htrim, if_neg (List.cons_ne_nil _ _),
    if_neg hne, hblanks, List.cons_append]

private theorem withoutBlankEnd_cons_of_blank {t : Text} (h : t.all isBlank = true) (c : Char) :
    withoutBlankEnd (c :: t) = if isBlank c then [] else c :: throughLineFeed t := by
  have hlines := (all_linesWithEnds t).trans h
  by_cases hc : c = '\n'
  · subst hc
    rw [withoutBlankEnd, linesWithEnds_lineFeed_cons, rdropWhile_cons_of_all hlines]
    rfl
  · rw [withoutBlankEnd, linesWithEnds_cons_of_ne hc]
    cases hcut : linesWithEnds t with
    | nil =>
      have ht : t = [] := by
        rw [← flatten_linesWithEnds t, hcut]
        rfl
      subst ht
      rw [rdropWhile_cons_of_all List.all_nil]
      cases hblank : isBlank c <;> simp [hblank, throughLineFeed]
    | cons line rest =>
      rw [hcut, List.all_cons, Bool.and_eq_true] at hlines
      rw [rdropWhile_cons_of_all hlines.2, List.all_cons, hlines.1, Bool.and_true,
        ← linesWithEnds_eq_cons hcut]
      split
      · rfl
      · exact List.append_nil _

private theorem withoutBlankEnd_cons_of_visible {t : Text} (h : t.all isBlank = false) (c : Char) :
    withoutBlankEnd (c :: t) = c :: withoutBlankEnd t := by
  have hlines := (all_linesWithEnds t).trans h
  by_cases hc : c = '\n'
  · subst hc
    rw [withoutBlankEnd, linesWithEnds_lineFeed_cons, rdropWhile_cons_of_not_all hlines]
    rfl
  · rw [withoutBlankEnd, withoutBlankEnd, linesWithEnds_cons_of_ne hc]
    cases hcut : linesWithEnds t with
    | nil =>
      rw [hcut] at hlines
      cases hlines
    | cons line rest =>
      rw [hcut, List.all_cons] at hlines
      cases hrest : rest.all fun line => line.all isBlank with
      | true =>
        -- The first line is the last visible one.
        rw [hrest, Bool.and_true] at hlines
        rw [rdropWhile_cons_of_all hrest, rdropWhile_cons_of_all hrest, List.all_cons, hlines,
          Bool.and_false]
        rfl
      | false =>
        rw [rdropWhile_cons_of_not_all hrest, rdropWhile_cons_of_not_all hrest]
        rfl

/-- Stacking takes exactly the blank lines off the end of an iteration. -/
theorem dropTrailingBlankLines_eq_withoutBlankEnd (t : Text) :
    dropTrailingBlankLines t = withoutBlankEnd t := by
  induction t with
  | nil => rfl
  | cons c t ih =>
    cases h : t.all isBlank with
    | true => rw [dropTrailingBlankLines_cons_of_blank h, withoutBlankEnd_cons_of_blank h]
    | false =>
      rw [dropTrailingBlankLines_cons_of_visible h, withoutBlankEnd_cons_of_visible h, ih]

/-- Nothing is left exactly if nothing is visible. -/
theorem withoutBlankEnd_eq_nil_iff (t : Text) : withoutBlankEnd t = [] ↔ t.all isBlank = true := by
  rw [← dropTrailingBlankLines_eq_withoutBlankEnd, ← trimEnd_eq_nil_iff, dropTrailingBlankLines]
  constructor
  · intro h
    split at h
    · assumption
    · exact (List.append_eq_nil_iff.mp h).1
  · intro h
    rw [if_pos h]

end DocTemplate.Text
