import DocTemplate.Proofs.Text.LineStarts

/-!
# Fence flags along a source

Reading a source drops the flag of every line that is left. At each place the first flag left tells
whether the line of that place is fenced, which is what the lookup by byte offset tells as well. An
unfenced line is followed by a fenced one only if that line opens a fence, so a text without
backticks that starts on an unfenced line never gets into fenced code.
-/

namespace DocTemplate.Fence

/-- The flags of the line that a text leads to and of the lines below. -/
def flagsAfter (flags : List Bool) (t : Text) : List Bool := flags.drop (t.count '\n')

@[simp] theorem flagsAfter_nil (flags : List Bool) : flagsAfter flags [] = flags := rfl

/-- Flags follow texts piece by piece. -/
@[simp] theorem flagsAfter_append (flags : List Bool) (s t : Text) :
    flagsAfter flags (s ++ t) = flagsAfter (flagsAfter flags s) t := by
  rw [flagsAfter, flagsAfter, flagsAfter, List.count_append, List.drop_drop]

/-- A text without a line feed stays on its line. -/
theorem flagsAfter_of_not_mem {t : Text} (h : '\n' ∉ t) (flags : List Bool) :
    flagsAfter flags t = flags := by
  rw [flagsAfter, List.count_eq_zero.mpr h, List.drop_zero]

/-- A line feed leaves a line, and any other character stays on it. -/
theorem flagsAfter_cons (flags : List Bool) (c : Char) (t : Text) :
    flagsAfter flags (c :: t) = flagsAfter (if c = '\n' then flags.tail else flags) t := by
  by_cases hc : c = '\n'
  · subst hc
    rw [flagsAfter, List.count_cons_self, if_pos rfl, flagsAfter, List.drop_tail]
  · rw [flagsAfter, List.count_cons_of_ne hc, if_neg hc, flagsAfter]

/-- There is one flag less for every line that is left. -/
theorem length_flagsAfter (flags : List Bool) (t : Text) :
    (flagsAfter flags t).length = flags.length - t.count '\n' := List.length_drop

/-- A text that ends above some lines leaves the flags of these lines as they are. -/
theorem flagsAfter_append_flags {front : List Bool} {t : Text} (h : t.count '\n' ≤ front.length)
    (below : List Bool) : flagsAfter (front ++ below) t = flagsAfter front t ++ below :=
  List.drop_append_of_le_length h

/-- The flag of a line does not depend on the lines below it. -/
theorem headD_append_flags {front : List Bool} (h : 0 < front.length) (below below' : List Bool) :
    (front ++ below).headD false = (front ++ below').headD false := by
  obtain ⟨flag, front, rfl⟩ := List.exists_cons_of_length_pos h
  rfl

/-- The line of every character of a text is not fenced, by the flags from its start on. -/
def Unfenced (flags : List Bool) (t : Text) : Prop :=
  ∀ pre c post, t = pre ++ c :: post → (flagsAfter flags pre).headD false = false

/-- Unfenced parts make an unfenced whole. -/
theorem Unfenced.append {flags : List Bool} {s t : Text} (hs : Unfenced flags s)
    (ht : Unfenced (flagsAfter flags s) t) : Unfenced flags (s ++ t) := by
  intro pre c post h
  rcases List.append_eq_append_iff.mp h with ⟨mid, rfl, rfl⟩ | ⟨mid, hmid, hpost⟩
  · simpa using ht mid c post rfl
  · cases mid with
    | nil =>
      rw [List.append_nil] at hmid
      subst hmid
      exact ht [] c post hpost.symm
    | cons d mid =>
      obtain ⟨rfl, -⟩ := List.cons_eq_cons.mp hpost
      exact hs pre c mid hmid

/-- The rest of an unfenced line, its line feed included, is unfenced. -/
theorem unfenced_of_line {flags : List Bool} {t : Text} (hflag : flags.headD false = false)
    (hline : '\n' ∉ t.dropLast) : Unfenced flags t := by
  rintro pre c post rfl
  rw [flagsAfter_of_not_mem, hflag]
  intro hmem
  apply hline
  rw [List.dropLast_append_cons]
  exact List.mem_append_left _ hmem

/-! ## Flags and the lines that are left -/

/-- The flags are those of a place on a line of which `t` is left: the flag of that line, then the
flags of the lines below it. -/
def Describes (flags : List Bool) (t : Text) : Prop :=
  ∃ flag inside, flags = flag :: classify inside (Text.lines t).tail ∧
    (flag = false → inside = false)

private theorem describes_classify (inside : Bool) (t : Text) :
    Describes (classify inside (Text.lines t)) t := by
  obtain ⟨l, ls, hlines⟩ := List.exists_cons_of_ne_nil (Text.lines_ne_nil t)
  rw [Describes, hlines, classify, List.tail_cons]
  split
  · exact ⟨true, !inside, rfl, by simp⟩
  · exact ⟨inside, inside, rfl, id⟩

/-- The flags of a source describe it from its start. -/
theorem describes_lineFlags (source : Text) : Describes (lineFlags source) source :=
  describes_classify false source

/-- Reading on keeps the description. -/
theorem Describes.after {flags : List Bool} {s t : Text} (h : Describes flags (s ++ t)) :
    Describes (flagsAfter flags s) t := by
  induction s generalizing flags with
  | nil => exact h
  | cons c s ih =>
    rw [flagsAfter_cons]
    apply ih
    obtain ⟨flag, inside, rfl, hinside⟩ := h
    by_cases hc : c = '\n'
    · subst hc
      simpa using describes_classify inside (s ++ t)
    · rw [if_neg hc]
      refine ⟨flag, inside, ?_, hinside⟩
      rw [List.cons_append, Text.lines_cons_of_ne hc]
      cases Text.lines (s ++ t) <;> rfl

private theorem exists_blanks_of_isDelimiter {line : Text} (h : isDelimiter line = true) :
    ∃ blanks rest, line = blanks ++ '\x60' :: rest ∧ ∀ c ∈ blanks, Text.isBlank c = true := by
  obtain ⟨rest, hrest⟩ := List.isPrefixOf_iff_prefix.mp h
  refine ⟨Text.leadingBlanks line, '\x60' :: '\x60' :: rest, ?_, ?_⟩
  · have hsplit := Text.leadingBlanks_append_trimStart line
    rw [← hrest] at hsplit
    exact hsplit.symm
  · exact List.all_eq_true.mp List.all_takeWhile

/-- A line that shows something else in front of its first backtick is no delimiter. -/
private theorem not_isDelimiter_of_visible {s rest line : Text} {ls : List Text} {c : Char}
    (hlines : Text.lines (s ++ c :: rest) = line :: ls) (hs : '\x60' ∉ s) (hc : c ≠ '\x60')
    (hvisible : Text.isBlank c = false) : isDelimiter line = false := by
  rw [Bool.eq_false_iff]
  intro h
  obtain ⟨blanks, back, rfl, hblanks⟩ := exists_blanks_of_isDelimiter h
  obtain ⟨below, hbelow⟩ := Text.prefix_of_lines_eq_cons hlines
  rw [List.append_assoc, List.cons_append] at hbelow
  rcases List.append_eq_append_iff.mp hbelow with ⟨mid, rfl, hmid⟩ | ⟨mid, rfl, hmid⟩
  · cases mid with
    | nil => exact hc (List.cons_eq_cons.mp hmid).1.symm
    | cons d mid =>
      obtain ⟨rfl, -⟩ := List.cons_eq_cons.mp hmid
      exact hs (List.mem_append_right _ List.mem_cons_self)
  · cases mid with
    | nil => exact hc (List.cons_eq_cons.mp hmid).1
    | cons d mid =>
      obtain ⟨rfl, -⟩ := List.cons_eq_cons.mp hmid
      rw [hblanks c (by simp)] at hvisible
      exact absurd hvisible (by simp)

/-- A text without backticks that starts on an unfenced line and ends with a visible character is
unfenced: the first fenced line below would have to start with a backtick. -/
theorem unfenced_of_no_backtick {flags : List Bool} {s rest : Text} {c : Char}
    (hdescribes : Describes flags (s ++ c :: rest)) (hflag : flags.headD false = false)
    (hs : '\x60' ∉ s) (hc : c ≠ '\x60') (hvisible : Text.isBlank c = false) :
    Unfenced flags (s ++ [c]) := by
  induction s generalizing flags with
  | nil => exact unfenced_of_line hflag (by simp)
  | cons d s ih =>
    have hs' : '\x60' ∉ s := fun h => hs (List.mem_cons_of_mem d h)
    have hhead : Unfenced flags [d] := unfenced_of_line hflag (by simp)
    apply hhead.append (ih (hdescribes.after (s := [d])) ?_ hs')
    by_cases hd : d = '\n'
    · subst hd
      obtain ⟨flag, inside, rfl, hinside⟩ := hdescribes
      obtain ⟨line, ls, hlines⟩ := List.exists_cons_of_ne_nil (Text.lines_ne_nil (s ++ c :: rest))
      have hline := not_isDelimiter_of_visible hlines hs' hc hvisible
      simp [flagsAfter_cons, hlines, classify, hline, hinside hflag]
    · rw [flagsAfter_cons, if_neg hd, flagsAfter_nil, hflag]

/-! ## Flags along the pieces of a source -/

/-- Every piece satisfies `p` with the flags of the place at which it starts, if the pieces stand
one behind the other. -/
def Along {α : Type} (p : List Bool → α → Prop) (part : α → Text) : List Bool → List α → Prop
  | _, [] => True
  | flags, x :: xs => p flags x ∧ Along p part (flagsAfter flags (part x)) xs

/-- A piece is judged with the flags that the pieces in front of it leave. -/
theorem Along.of_append {α : Type} {p : List Bool → α → Prop} {part : α → Text}
    {flags : List Bool} {pre : List α} {x : α} {post : List α}
    (h : Along p part flags (pre ++ x :: post)) : p (flagsAfter flags (pre.flatMap part)) x := by
  induction pre generalizing flags with
  | nil => exact h.1
  | cons y pre ih =>
    rw [List.flatMap_cons, flagsAfter_append]
    exact ih h.2

/-! ## Flags and byte offsets -/

/-- The lookup by byte offset reads the flag of the line of the byte's character. -/
theorem isInside_of_char {before rest : Text} {c : Char} {offset : Nat}
    (hfirst : Text.utf8Size before ≤ offset) (hlast : offset < Text.utf8Size before + c.utf8Size) :
    isInside (before ++ c :: rest) offset =
      (flagsAfter (lineFlags (before ++ c :: rest)) before).headD false := by
  rw [isInside, isLineInside, Text.lineIndex_of_char hfirst hlast, flagsAfter,
    List.headD_eq_head?_getD, List.head?_drop, List.getD_eq_getElem?_getD]

/-- No byte of an unfenced part of a source is on a fenced line. -/
theorem Unfenced.isInside_eq_false {before part rest : Text}
    (h : Unfenced (flagsAfter (lineFlags (before ++ part ++ rest)) before) part) {offset : Nat}
    (hfirst : Text.utf8Size before ≤ offset)
    (hlast : offset < Text.utf8Size before + Text.utf8Size part) :
    isInside (before ++ part ++ rest) offset = false := by
  obtain ⟨pre, c, post, rfl, hpre, hc⟩ := Text.exists_char_at hfirst hlast
  have hsource : before ++ (pre ++ c :: post) ++ rest = (before ++ pre) ++ c :: (post ++ rest) := by
    simp
  rw [hsource, isInside_of_char hpre hc, flagsAfter_append, ← hsource]
  exact h pre c post rfl

/-! ## Flags of a source made of parts -/

/-- Below some lines the flags go on from the state in which these leave the fence. -/
theorem classify_append (inside : Bool) (ls ms : List Text) :
    classify inside (ls ++ ms) =
      classify inside ls ++ classify (inside ^^ decide (ls.countP isDelimiter % 2 = 1)) ms := by
  induction ls generalizing inside with
  | nil => simp [classify]
  | cons l ls ih =>
    rw [List.cons_append, classify, classify]
    cases hl : isDelimiter l with
    | true =>
      rw [if_pos rfl, if_pos rfl, ih, List.cons_append, List.countP_cons_of_pos hl]
      congr 2
      rcases Nat.mod_two_eq_zero_or_one (ls.countP isDelimiter) with h | h <;>
        cases inside <;> simp [h, Nat.add_mod]
    | false =>
      rw [if_neg Bool.false_ne_true, if_neg Bool.false_ne_true, ih, List.cons_append,
        List.countP_cons_of_neg (by simp [hl])]

/-- Behind whole lines with an even number of delimiters the flags start anew. -/
theorem lineFlags_append {s : Text} (hs : Text.EndsLine s)
    (heven : (Text.lines s).countP isDelimiter % 2 = 0) (t : Text) :
    lineFlags (s ++ t) = classify false (Text.lines s).dropLast ++ lineFlags t := by
  have hdelimiters : (Text.lines s).dropLast.countP isDelimiter % 2 = 0 := by
    have hlast : isDelimiter [] = false := rfl
    rw [hs.lines_eq, List.countP_append, List.countP_singleton, hlast] at heven
    exact heven
  rw [lineFlags, Text.lines_append hs, classify_append, hdelimiters]
  rfl

end DocTemplate.Fence
