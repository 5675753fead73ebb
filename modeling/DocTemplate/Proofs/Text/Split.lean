import DocTemplate.Proofs.Text.Blank

/-!
# Pieces of a text made of parts

Cutting a text at a class of characters is splitting the list of its characters, so what is known of
that split holds of pieces, and pieces joined by their separator are the text again. Words joined by
single blanks are the words of what they are joined to.
-/

namespace DocTemplate.Text

/-- The pieces of a text are those of the list of its characters. -/
theorem splitWhere_eq_splitOnP (p : Char → Bool) (t : Text) : splitWhere p t = t.splitOnP p := by
  induction t with
  | nil => rfl
  | cons c t ih => rw [splitWhere, List.splitOnP_cons_eq_if_modifyHead, ih]

/-- A part without separators in front of one is the first piece. -/
theorem splitWhere_append_cons {p : Char → Bool} {s : Text} {c : Char}
    (hs : ∀ d ∈ s, p d = false) (hc : p c = true) (t : Text) :
    splitWhere p (s ++ c :: t) = s :: splitWhere p t := by
  rw [splitWhere_eq_splitOnP, splitWhere_eq_splitOnP,
    List.splitOnP_append_cons_of_forall_mem hs c hc]

/-- Pieces hold no separators. -/
theorem eq_false_of_mem_splitWhere {p : Char → Bool} {t piece : Text} (h : piece ∈ splitWhere p t) :
    ∀ c ∈ piece, p c = false := by
  induction t generalizing piece with
  | nil =>
    obtain rfl := List.mem_singleton.mp h
    simp
  | cons d t ih =>
    rw [splitWhere] at h
    split at h
    · rcases List.mem_cons.mp h with rfl | h
      · simp
      · exact ih h
    · rename_i hd
      obtain ⟨first, rest, hpieces⟩ := List.exists_cons_of_ne_nil (splitWhere_ne_nil p t)
      rw [hpieces] at h ih
      rcases List.mem_cons.mp h with rfl | h
      · exact List.forall_mem_cons.mpr ⟨Bool.eq_false_iff.mpr hd, ih List.mem_cons_self⟩
      · exact ih (List.mem_cons_of_mem first h)

/-- Pieces joined by their separator are the text again. -/
theorem intercalate_splitOn (sep : Char) (t : Text) : [sep].intercalate (splitOn sep t) = t := by
  rw [splitOn, splitWhere_eq_splitOnP]
  exact List.intercalate_splitOn sep

/-- Texts without the separator are the pieces of what they are joined to. -/
theorem splitOn_intercalate {sep : Char} {pieces : List Text} (h : ∀ piece ∈ pieces, sep ∉ piece)
    (hne : pieces ≠ []) : splitOn sep ([sep].intercalate pieces) = pieces := by
  rw [splitOn, splitWhere_eq_splitOnP]
  exact List.splitOn_intercalate sep h hne

/-! ## Joined texts -/

/-- Joined texts hold their characters and separators. -/
theorem mem_intercalate {sep c : Char} {pieces : List Text}
    (h : c ∈ [sep].intercalate pieces) : c = sep ∨ ∃ piece ∈ pieces, c ∈ piece := by
  induction pieces with
  | nil => cases h
  | cons first rest ih =>
    cases rest with
    | nil =>
      rw [List.intercalate_singleton] at h
      exact Or.inr ⟨first, List.mem_cons_self, h⟩
    | cons next rest =>
      rw [List.intercalate_cons_cons, List.append_assoc, List.mem_append, List.mem_append,
        List.mem_singleton] at h
      rcases h with h | h | h
      · exact Or.inr ⟨first, List.mem_cons_self, h⟩
      · exact Or.inl h
      · rcases ih h with h | ⟨piece, hpiece, hmem⟩
        · exact Or.inl h
        · exact Or.inr ⟨piece, List.mem_cons_of_mem first hpiece, hmem⟩

/-- Joined texts start with the first of them. -/
theorem head?_intercalate {sep : Char} {first : Text} (hfirst : first ≠ []) (rest : List Text) :
    ([sep].intercalate (first :: rest)).head? = first.head? := by
  obtain ⟨c, t, rfl⟩ := List.exists_cons_of_ne_nil hfirst
  cases rest with
  | nil => rw [List.intercalate_singleton]
  | cons next rest => rw [List.intercalate_cons_cons, List.append_assoc, List.cons_append]; rfl

/-- Joined texts end with the last of them. -/
theorem getLast?_intercalate {sep : Char} {pieces : List Text} (h : ∀ piece ∈ pieces, piece ≠ [])
    {last : Text} (hlast : pieces.getLast? = some last) :
    ([sep].intercalate pieces).getLast? = last.getLast? := by
  induction pieces with
  | nil => cases hlast
  | cons first rest ih =>
    cases rest with
    | nil =>
      rw [List.getLast?_singleton, Option.some.injEq] at hlast
      rw [List.intercalate_singleton, hlast]
    | cons next rest =>
      rw [List.getLast?_cons_cons] at hlast
      have hend := ih (fun piece hpiece => h piece (List.mem_cons_of_mem first hpiece)) hlast
      have hne : last ≠ [] :=
        h last (List.mem_cons_of_mem first (List.mem_of_getLast? hlast))
      have hc := List.getLast?_eq_some_getLast hne
      rw [hc] at hend ⊢
      rw [List.intercalate_cons_cons, List.getLast?_append, hend, Option.some_or]

/-! ## Words -/

/-- A text without blanks is one word. -/
theorem words_of_visible {w : Text} (hne : w ≠ []) (hvisible : ∀ c ∈ w, isBlank c = false) :
    words w = [w] := by
  rw [words, splitWhere_eq_splitOnP, List.splitOnP_eq_singleton hvisible]
  simpa using hne

/-- A blank separates the words in front of it from the words behind. -/
theorem words_append_cons {c : Char} (hc : isBlank c = true) (s t : Text) :
    words (s ++ c :: t) = words s ++ words t := by
  have hsplit :
      splitWhere isBlank (s ++ c :: t) = splitWhere isBlank s ++ splitWhere isBlank t := by
    induction s with
    | nil => simp [splitWhere, hc]
    | cons d s ih =>
      rw [List.cons_append, splitWhere, splitWhere, ih]
      split
      · rfl
      · obtain ⟨first, rest, hpieces⟩ := List.exists_cons_of_ne_nil (splitWhere_ne_nil isBlank s)
        rw [hpieces]
        rfl
  rw [words, hsplit, List.filter_append]
  rfl

private theorem words_blank_append {blanks : Text} (h : blanks.all isBlank = true) (t : Text) :
    words (blanks ++ t) = words t := by
  induction blanks with
  | nil => rfl
  | cons c blanks ih =>
    rw [List.all_cons, Bool.and_eq_true] at h
    exact (words_append_cons h.1 [] (blanks ++ t)).trans (ih h.2)

private theorem words_append_blank {blanks : Text} (h : blanks.all isBlank = true) (t : Text) :
    words (t ++ blanks) = words t := by
  cases blanks with
  | nil => rw [List.append_nil]
  | cons c blanks =>
    rw [List.all_cons, Bool.and_eq_true] at h
    have hblanks := words_blank_append h.2 []
    rw [List.append_nil] at hblanks
    rw [words_append_cons h.1, hblanks]
    exact List.append_nil (words t)

/-- Trimming leaves the words as they are. -/
theorem words_trim (t : Text) : words (trim t) = words t := by
  have hfront := words_blank_append (all_isBlank_leadingBlanks t) (trimStart t)
  have hback := words_append_blank (all_isBlank_trailingBlanks (trimStart t)) (trim t)
  rw [leadingBlanks_append_trimStart] at hfront
  rw [trim, trimEnd_append_trailingBlanks] at hback
  rw [hfront, hback, trim]

/-- Words joined by single blanks are the words of what they are joined to. -/
theorem words_intercalate {ws : List Text}
    (h : ∀ w ∈ ws, w ≠ [] ∧ ∀ c ∈ w, isBlank c = false) : words ([' '].intercalate ws) = ws := by
  induction ws with
  | nil => rfl
  | cons w ws ih =>
    obtain ⟨hne, hvisible⟩ := h w List.mem_cons_self
    cases ws with
    | nil => rw [List.intercalate_singleton, words_of_visible hne hvisible]
    | cons next ws =>
      have hrest := ih fun w' hw' => h w' (List.mem_cons_of_mem w hw')
      have hblank : isBlank ' ' = true := by decide
      rw [words] at hrest
      rw [List.intercalate_cons_cons, List.append_assoc, List.singleton_append, words,
        splitWhere_append_cons hvisible hblank, List.filter_cons_of_pos (by simpa using hne), hrest]

end DocTemplate.Text
