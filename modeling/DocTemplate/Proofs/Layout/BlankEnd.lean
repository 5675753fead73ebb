import DocTemplate.Node.Render
import DocTemplate.Proofs.Text.BlankLines
import Mathlib.Data.List.Forall2

/-!
# Iterations without blank lines at their end

A text is cut into lines in one way. Of an iteration of a loop on lines of its own, the lines up to
the last visible one stay as they are, and the longest run of blank lines behind them goes.
-/

namespace DocTemplate

open Text

/-- The lines of a text, each with the line feed that ends it. -/
structure AreLinesOf (ls : List Text) (t : Text) : Prop where
  /-- The lines are the text. -/
  whole : ls.flatten = t
  /-- Each of them has a character. -/
  nonempty : [] ∉ ls
  /-- A line feed ends its line. -/
  unbroken : ∀ l ∈ ls, '\n' ∉ l.dropLast
  /-- Only the last of them may lack its line feed. -/
  ended : ∀ l ∈ ls.dropLast, l.getLast? = some '\n'

/-- Behind the lines `kept`, the lines `dropped` are the longest suffix of blank lines. -/
structure IsLongestBlankEnd (kept dropped : List Text) : Prop where
  /-- The lines dropped are blank. -/
  blank : ∀ line ∈ dropped, line.all isBlank = true
  /-- No longer suffix is blank. -/
  longest : ∀ back, back <:+ kept ++ dropped → (∀ line ∈ back, line.all isBlank = true) →
    back <:+ dropped

/-- What is shown has the lines of the text but the longest suffix of blank ones. -/
def LosesBlankEnd (t shown : Text) : Prop :=
  ∃ kept dropped, AreLinesOf (kept ++ dropped) t ∧ IsLongestBlankEnd kept dropped ∧
    AreLinesOf kept shown

/-- A cut that takes exactly the blank lines off the end of a text. -/
structure CutsBlankEnd (cut : Text → Text) : Prop where
  /-- A text has its lines in one way. -/
  lines : ∀ t, ∃! ls, AreLinesOf ls t
  /-- The lines in front of the longest suffix of blank lines are kept as they are. -/
  shown : ∀ t shown, cut t = shown ↔ LosesBlankEnd t shown
  /-- Nothing is left exactly if nothing is visible. -/
  nothing : ∀ t, cut t = [] ↔ t.all isBlank = true
  /-- A second cut takes nothing. -/
  idempotent : ∀ t, cut (cut t) = cut t

/-! ## The lines of a text -/

namespace AreLinesOf

variable {t l : Text} {ls kept dropped : List Text}

/-- A first line is a line, and the last one if it lacks its line feed. -/
theorem cons_iff : AreLinesOf (l :: ls) (l ++ t) ↔
    l ≠ [] ∧ '\n' ∉ l.dropLast ∧ (l.getLast? = some '\n' ∨ ls = []) ∧ AreLinesOf ls t := by
  have hended : (∀ l' ∈ (l :: ls).dropLast, l'.getLast? = some '\n') ↔
      (l.getLast? = some '\n' ∨ ls = []) ∧ ∀ l' ∈ ls.dropLast, l'.getLast? = some '\n' := by
    cases ls with
    | nil => simp
    | cons l' ls => simp
  constructor
  · rintro ⟨hwhole, hnonempty, hunbroken, hlast⟩
    rw [List.mem_cons, not_or] at hnonempty
    rw [List.forall_mem_cons] at hunbroken
    obtain ⟨hfirst, hlast⟩ := hended.mp hlast
    exact ⟨Ne.symm hnonempty.1, hunbroken.1, hfirst, List.append_cancel_left hwhole, hnonempty.2,
      hunbroken.2, hlast⟩
  · rintro ⟨hne, hline, hfirst, rfl, hnonempty, hunbroken, hlast⟩
    refine ⟨rfl, ?_, List.forall_mem_cons.mpr ⟨hline, hunbroken⟩, hended.mpr ⟨hfirst, hlast⟩⟩
    rw [List.mem_cons, not_or]
    exact ⟨Ne.symm hne, hnonempty⟩

/-- No text has no line. -/
theorem nil_iff : AreLinesOf [] t ↔ t = [] := by
  constructor
  · rintro ⟨rfl, -, -, -⟩
    rfl
  · rintro rfl
    exact ⟨rfl, by simp, by simp, by simp⟩

/-- The first lines are the lines of what they hold. -/
theorem of_append (h : AreLinesOf (kept ++ dropped) t) : AreLinesOf kept kept.flatten := by
  refine ⟨rfl, ?_, ?_, ?_⟩
  · exact fun hmem => h.nonempty (List.mem_append_left dropped hmem)
  · exact fun line hmem => h.unbroken line (List.mem_append_left dropped hmem)
  · intro line hmem
    apply h.ended
    cases dropped with
    | nil => rwa [List.append_nil]
    | cons l dropped =>
      rw [List.dropLast_append_of_ne_nil (List.cons_ne_nil l dropped)]
      exact List.mem_append_left _ ((List.dropLast_sublist kept).mem hmem)

/-- Every text can be cut into its lines. -/
theorem of_linesWithEnds (t : Text) : AreLinesOf (linesWithEnds t) t := by
  induction t with
  | nil => exact nil_iff.mpr rfl
  | cons c t ih =>
    by_cases hc : c = '\n'
    · subst hc
      rw [linesWithEnds_lineFeed_cons]
      exact cons_iff.mpr ⟨by simp, by simp, Or.inl rfl, ih⟩
    · rw [linesWithEnds_cons_of_ne hc]
      cases hlines : linesWithEnds t with
      | nil =>
        rw [hlines, nil_iff] at ih
        subst ih
        exact cons_iff.mpr ⟨by simp, by simp, Or.inr rfl, nil_iff.mpr rfl⟩
      | cons line rest =>
        rw [hlines] at ih
        obtain rfl := ih.whole
        obtain ⟨hne, hline, hlast, hrest⟩ := cons_iff.mp ih
        refine cons_iff.mpr ⟨List.cons_ne_nil c line, ?_, ?_, hrest⟩
        · rw [List.dropLast_cons_of_ne_nil hne, List.mem_cons, not_or]
          exact ⟨Ne.symm hc, hline⟩
        · obtain ⟨d, line, rfl⟩ := List.exists_cons_of_ne_nil hne
          rwa [List.getLast?_cons_cons]

/-- There is one way to cut a text into its lines. -/
theorem eq_linesWithEnds (h : AreLinesOf ls t) : ls = linesWithEnds t := by
  induction ls generalizing t with
  | nil =>
    rw [nil_iff.mp h]
    rfl
  | cons l ls ih =>
    obtain rfl := h.whole
    obtain ⟨hne, hline, hlast, hrest⟩ := cons_iff.mp h
    have ht : l.getLast? = some '\n' ∨ ls.flatten = [] := by
      refine hlast.imp_right ?_
      rintro rfl
      rfl
    rw [List.flatten_cons, linesWithEnds_append hne hline ht, ← ih hrest]

end AreLinesOf

/-! ## The blank lines at the end -/

namespace IsLongestBlankEnd

variable {kept dropped : List Text}

/-- A suffix of blank lines is the longest one if the line in front of it is visible. -/
theorem iff_getLast? : IsLongestBlankEnd kept dropped ↔
    (∀ line ∈ dropped, line.all isBlank = true) ∧
      ∀ line ∈ kept.getLast?, line.all isBlank = false := by
  constructor
  · rintro ⟨hblank, hlongest⟩
    refine ⟨hblank, fun line hline => ?_⟩
    obtain ⟨front, rfl⟩ := List.getLast?_eq_some_iff.mp hline
    by_contra hvisible
    rw [Bool.not_eq_false] at hvisible
    -- With a blank line in front the suffix would be longer.
    have hsuffix : line :: dropped <:+ dropped := by
      refine hlongest _ ⟨front, ?_⟩ (List.forall_mem_cons.mpr ⟨hvisible, hblank⟩)
      rw [List.append_assoc, List.singleton_append]
    have hlength := hsuffix.length_le
    rw [List.length_cons] at hlength
    omega
  · rintro ⟨hblank, hvisible⟩
    refine ⟨hblank, fun back hback hall => ?_⟩
    refine (List.suffix_or_suffix_of_suffix hback (List.suffix_append kept dropped)).elim id ?_
    rintro ⟨more, rfl⟩
    -- What `back` has more than `dropped` is a suffix of `kept`, which ends with a visible line.
    obtain ⟨front, hfront⟩ := hback
    rw [← List.append_assoc] at hfront
    obtain rfl := List.append_cancel_right hfront
    rcases List.eq_nil_or_concat' more with rfl | ⟨more, line, rfl⟩
    · exact List.suffix_refl dropped
    · have hline : line.all isBlank = true := hall line (by simp)
      have hlast := hvisible line (by rw [← List.append_assoc, List.getLast?_concat]; rfl)
      rw [hline] at hlast
      cases hlast

/-- The longest suffix of blank lines is the one that is taken off from behind. -/
theorem rdropWhile_eq (h : IsLongestBlankEnd kept dropped) :
    ((kept ++ dropped).rdropWhile fun line => line.all isBlank) = kept := by
  obtain ⟨hblank, hvisible⟩ := iff_getLast?.mp h
  rw [List.rdropWhile, List.reverse_append,
    List.dropWhile_append_of_pos fun line hline => hblank line (List.mem_reverse.mp hline)]
  refine List.rdropWhile_eq_self_iff.mpr fun hne hlast => ?_
  rw [hvisible _ (List.getLast?_eq_some_getLast hne)] at hlast
  cases hlast

/-- What is taken off from behind is the longest suffix of blank lines. -/
theorem rdropWhile_rtakeWhile (ls : List Text) :
    IsLongestBlankEnd (ls.rdropWhile fun line => line.all isBlank)
      (ls.rtakeWhile fun line => line.all isBlank) := by
  refine iff_getLast?.mpr ⟨?_, ?_⟩
  · intro line hline
    exact List.mem_rtakeWhile_imp (p := fun line : Text => line.all isBlank) hline
  · intro line hline
    obtain ⟨hne, rfl⟩ := List.mem_getLast?_eq_getLast hline
    exact Bool.eq_false_iff.mpr (List.rdropWhile_last_not _ ls hne)

end IsLongestBlankEnd

/-- Stacking keeps the lines of an iteration in front of its blank end. -/
theorem dropTrailingBlankLines_eq_iff (t shown : Text) :
    dropTrailingBlankLines t = shown ↔ LosesBlankEnd t shown := by
  rw [dropTrailingBlankLines_eq_withoutBlankEnd, withoutBlankEnd]
  constructor
  · rintro rfl
    have hlines := AreLinesOf.of_linesWithEnds t
    rw [← List.rdropWhile_append_rtakeWhile (p := fun line => line.all isBlank)
      (l := linesWithEnds t)] at hlines
    exact ⟨_, _, hlines, .rdropWhile_rtakeWhile (linesWithEnds t), hlines.of_append⟩
  · rintro ⟨kept, dropped, hlines, hlongest, rfl, -⟩
    rw [← hlines.eq_linesWithEnds, hlongest.rdropWhile_eq]

/-- Pieces and what is left of them go one by one. -/
theorem forall₂_losesBlankEnd_iff {pieces parts : List Text} :
    List.Forall₂ LosesBlankEnd pieces parts ↔ pieces.map dropTrailingBlankLines = parts := by
  rw [← List.forall₂_eq_eq_eq, List.forall₂_map_left_iff]
  simp only [dropTrailingBlankLines_eq_iff]

/-- A loop on lines of its own shows what is left of its iterations one behind the other. -/
theorem render_block_eq_ok_iff (filters : Filters) (scope : Scope) (head : LoopHead)
    (body : List Node) (shown : Text) :
    Node.render filters scope (.loop head .block body) = .ok shown ↔
      ∃ pieces parts, ((scope.items head.iterable).mapM fun item =>
          Node.renderAll filters (scope.bind head.name item) body) = .ok pieces ∧
        List.Forall₂ LosesBlankEnd pieces parts ∧ shown = parts.flatten := by
  rw [Node.render]
  simp only [forall₂_losesBlankEnd_iff]
  cases (scope.items head.iterable).mapM fun item =>
      Node.renderAll filters (scope.bind head.name item) body with
  | error failure =>
    constructor
    · nofun
    · rintro ⟨pieces, parts, ⟨⟩, -⟩
  | ok pieces =>
    constructor
    · rintro ⟨⟩
      exact ⟨pieces, _, rfl, rfl, List.flatMap_def⟩
    · rintro ⟨_, _, ⟨⟩, rfl, rfl⟩
      exact congrArg Except.ok List.flatMap_def

/-- Each iteration of a loop on lines of its own loses exactly the blank lines at its end, and what
is left of them is shown one behind the other. -/
theorem cutsBlankEnd_dropTrailingBlankLines :
    CutsBlankEnd dropTrailingBlankLines ∧
      ∀ (filters : Filters) (scope : Scope) (head : LoopHead) (body : List Node) (shown : Text),
        Node.render filters scope (.loop head .block body) = .ok shown ↔
          ∃ pieces parts, ((scope.items head.iterable).mapM fun item =>
              Node.renderAll filters (scope.bind head.name item) body) = .ok pieces ∧
            List.Forall₂ LosesBlankEnd pieces parts ∧ shown = parts.flatten := by
  refine ⟨⟨?_, dropTrailingBlankLines_eq_iff, ?_, ?_⟩, render_block_eq_ok_iff⟩
  · exact fun t => ⟨linesWithEnds t, .of_linesWithEnds t, fun ls h => h.eq_linesWithEnds⟩
  · intro t
    rw [dropTrailingBlankLines_eq_withoutBlankEnd, withoutBlankEnd_eq_nil_iff]
  · intro t
    obtain ⟨kept, dropped, -, hlongest, hshown⟩ := (dropTrailingBlankLines_eq_iff t _).mp rfl
    refine (dropTrailingBlankLines_eq_iff _ _).mpr ⟨kept, [], ?_, ?_, hshown⟩
    · rwa [List.append_nil]
    · exact IsLongestBlankEnd.iff_getLast?.mpr
        ⟨by simp, (IsLongestBlankEnd.iff_getLast?.mp hlongest).2⟩

example : dropTrailingBlankLines "a\n\n b \r\n\t\r\n\u2028".toList = "a\n\n b \r\n".toList := by
  decide

end DocTemplate
