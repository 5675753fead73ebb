import DocTemplate.Text.Case
import Mathlib.Data.List.SplitBy

/-!
# Titles word by word

A text falls in one way into runs that are blank and visible in turn. Making a title goes over the
text character by character and knows only whether the character before is blank; still it keeps
the blank runs and capitalizes the visible ones, whatever a character becomes. So the titles of
texts between blanks may be made one by one.
-/

namespace DocTemplate.Text

/-! ## Runs -/

/-- The maximal runs of a text of blank and of visible characters. -/
structure AreRunsOf (runs : List Text) (t : Text) : Prop where
  /-- The runs are the text. -/
  whole : runs.flatten = t
  /-- Each of them has a character. -/
  nonempty : [] ∉ runs
  /-- The characters of a run are all blank or all visible. -/
  uniform : ∀ run ∈ runs, ∀ c ∈ run, ∀ d ∈ run, isBlank c = isBlank d
  /-- Of two neighbours one is blank and one is visible. -/
  maximal : runs.IsChain fun run next => ∀ c ∈ run, ∀ d ∈ next, isBlank c ≠ isBlank d

/-- The characters of a text are of one kind if neighbours are. -/
private theorem isChain_isBlank_iff {t : Text} :
    (t.IsChain fun c d => (isBlank c == isBlank d) = true) ↔
      ∀ c ∈ t, ∀ d ∈ t, isBlank c = isBlank d := by
  simp only [beq_iff_eq]
  rw [List.isChain_iff_pairwise]
  have : Std.Symm fun c d => isBlank c = isBlank d := ⟨fun _ _ h => h.symm⟩
  constructor
  · intro h c hc d hd
    exact List.Pairwise.forall_of_forall (R := fun c d => isBlank c = isBlank d)
      (fun _ _ => rfl) h hc hd
  · exact List.pairwise_of_forall_mem_list

/-- Runs end where the kind of the characters changes. -/
theorem areRunsOf_iff {runs : List Text} {t : Text} :
    AreRunsOf runs t ↔ t.splitBy (fun c d => isBlank c == isBlank d) = runs := by
  have hmaximal (hnonempty : [] ∉ runs)
      (huniform : ∀ run ∈ runs, ∀ c ∈ run, ∀ d ∈ run, isBlank c = isBlank d) :
      (runs.IsChain fun run next => ∀ c ∈ run, ∀ d ∈ next, isBlank c ≠ isBlank d) ↔
        runs.IsChain fun run next =>
          ∃ hr hn, (isBlank (run.getLast hr) == isBlank (next.head hn)) = false := by
    refine List.IsChain.iff_of_mem_imp fun run next hrun hnext => ?_
    have hr : run ≠ [] := fun h => hnonempty (h ▸ hrun)
    have hn : next ≠ [] := fun h => hnonempty (h ▸ hnext)
    simp only [hr, hn, beq_eq_false_iff_ne, ne_eq, not_false_eq_true, exists_true_left]
    constructor
    · intro h
      exact h _ (List.getLast_mem hr) _ (List.head_mem hn)
    · intro h c hc d hd heq
      rw [huniform run hrun _ (List.getLast_mem hr) c hc,
        huniform next hnext _ (List.head_mem hn) d hd] at h
      exact h heq
  rw [List.splitBy_eq_iff]
  simp only [isChain_isBlank_iff]
  constructor
  · rintro ⟨hwhole, hnonempty, huniform, h⟩
    exact ⟨hwhole.symm, hnonempty, huniform, (hmaximal hnonempty huniform).mp h⟩
  · rintro ⟨hwhole, hnonempty, huniform, h⟩
    exact ⟨hwhole.symm, hnonempty, huniform, (hmaximal hnonempty huniform).mpr h⟩

/-- What is behind the first run has the other runs. -/
theorem AreRunsOf.tail {run t : Text} {runs : List Text} (h : AreRunsOf (run :: runs) t) :
    AreRunsOf runs runs.flatten :=
  ⟨rfl, fun hnil => h.nonempty (List.mem_cons_of_mem run hnil),
    (List.forall_mem_cons.mp h.uniform).2, h.maximal.tail⟩

/-! ## Titles of parts -/

section Titles

variable (up : Char → Text)

/-- A first character becomes something else only if it is visible and a word may start there, and
behind it a word may start if it is blank. -/
theorem titleFrom_cons (atStart : Bool) (c : Char) (t : Text) :
    titleFrom up atStart (c :: t) =
      (if atStart && !isBlank c then up c else [c]) ++ titleFrom up (isBlank c) t := by
  cases hc : isBlank c <;> simp [titleFrom, hc]

/-- Whether a word may start behind a text: the last character is blank, or there is none. -/
def startsBehind (atStart : Bool) (t : Text) : Bool := t.getLast?.elim atStart isBlank

/-- What is known behind a text is what its last part tells. -/
theorem startsBehind_append (atStart : Bool) (s t : Text) :
    startsBehind atStart (s ++ t) = startsBehind (startsBehind atStart s) t := by
  rw [startsBehind, startsBehind, startsBehind, List.getLast?_append]
  cases t.getLast? <;> rfl

/-- Behind blanks a word may start. -/
theorem startsBehind_of_blank {t : Text} (hne : t ≠ []) (h : ∀ c ∈ t, isBlank c = true)
    (atStart : Bool) : startsBehind atStart t = true := by
  rw [startsBehind, List.getLast?_eq_some_getLast hne]
  exact h _ (List.getLast_mem hne)

/-- The title of a text goes on behind its first part with what is known there. -/
theorem titleFrom_append (atStart : Bool) (s t : Text) :
    titleFrom up atStart (s ++ t) =
      titleFrom up atStart s ++ titleFrom up (startsBehind atStart s) t := by
  induction s generalizing atStart with
  | nil => rfl
  | cons c s ih =>
    have hbehind : startsBehind atStart (c :: s) = startsBehind (isBlank c) s :=
      startsBehind_append atStart [c] s
    rw [List.cons_append, titleFrom_cons, titleFrom_cons, ih, hbehind, List.append_assoc]

/-- Blanks stay as they are. -/
theorem titleFrom_of_blank {t : Text} (h : ∀ c ∈ t, isBlank c = true) (atStart : Bool) :
    titleFrom up atStart t = t := by
  induction t generalizing atStart with
  | nil => rfl
  | cons c t ih =>
    obtain ⟨hc, ht⟩ := List.forall_mem_cons.mp h
    rw [titleFrom_cons, ih ht]
    simp [hc]

/-- Inside a word nothing changes. -/
theorem titleFrom_false_of_visible {t : Text} (h : ∀ c ∈ t, isBlank c = false) :
    titleFrom up false t = t := by
  induction t with
  | nil => rfl
  | cons c t ih =>
    obtain ⟨hc, ht⟩ := List.forall_mem_cons.mp h
    rw [titleFrom_cons, hc, ih ht]
    rfl

/-- A word is capitalized. -/
theorem titleFrom_true_of_visible {t : Text} (h : ∀ c ∈ t, isBlank c = false) :
    titleFrom up true t = capitalizeBy up t := by
  cases t with
  | nil => rfl
  | cons c t =>
    obtain ⟨hc, ht⟩ := List.forall_mem_cons.mp h
    rw [titleFrom_cons, hc, titleFrom_false_of_visible up ht]
    rfl

/-- In front of a blank it does not matter whether a word may start. -/
theorem titleFrom_of_head? {t : Text} (h : ∀ c ∈ t.head?, isBlank c = true)
    (atStart atStart' : Bool) : titleFrom up atStart t = titleFrom up atStart' t := by
  cases t with
  | nil => rfl
  | cons c t =>
    have hc : isBlank c = true := h c rfl
    rw [titleFrom_cons, titleFrom_cons, hc]
    simp

end Titles

/-- What is behind a run starts with a character of the other kind. -/
theorem AreRunsOf.isBlank_ne_of_head? {run t : Text} {runs : List Text}
    (h : AreRunsOf (run :: runs) t) :
    ∀ c ∈ run, ∀ d ∈ runs.flatten.head?, isBlank c ≠ isBlank d := by
  intro c hc d hd
  cases runs with
  | nil => cases hd
  | cons next runs =>
    have hne : next ≠ [] := fun hnil => h.nonempty (by simp [hnil])
    rw [List.flatten_cons, List.head?_append_of_ne_nil _ hne] at hd
    exact (List.isChain_cons_cons.mp h.maximal).1 c hc d (List.mem_of_mem_head? hd)

/-- A title keeps the blank runs of a text and capitalizes its words. -/
theorem AreRunsOf.titleFrom_eq {runs : List Text} {t : Text} (h : AreRunsOf runs t)
    (up : Char → Text) : titleFrom up true t =
      runs.flatMap fun run => if run.all isBlank then run else capitalizeBy up run := by
  induction runs generalizing t with
  | nil =>
    rw [← h.whole]
    rfl
  | cons run runs ih =>
    have hne : run ≠ [] := fun hnil => h.nonempty (hnil ▸ List.mem_cons_self)
    obtain ⟨c, hc⟩ := List.exists_mem_of_ne_nil run hne
    have hkind : ∀ d ∈ run, isBlank d = isBlank c :=
      fun d hd => h.uniform run List.mem_cons_self d hd c hc
    have hnext := h.isBlank_ne_of_head? c hc
    rw [← h.whole, List.flatten_cons, titleFrom_append, List.flatMap_cons, ← ih h.tail]
    cases hblank : isBlank c with
    | true =>
      rw [hblank] at hkind
      rw [titleFrom_of_blank up hkind, startsBehind_of_blank hne hkind,
        if_pos (List.all_eq_true.mpr hkind)]
    | false =>
      simp only [hblank, ne_eq, Bool.false_eq, Bool.not_eq_false] at hkind hnext
      have hvisible : ¬ run.all isBlank = true := by
        intro hall
        rw [List.all_eq_true.mp hall c hc] at hblank
        cases hblank
      -- The flag is down behind a word, but what follows is blank, so this does not matter.
      rw [titleFrom_true_of_visible up hkind, titleFrom_of_head? up hnext _ true, if_neg hvisible]

/-- A title made word by word: blank runs are kept, the others are capitalized. -/
structure TitlesWords (title capital : Text → Text) : Prop where
  /-- A text has its runs in one way. -/
  runs : ∀ t, ∃! runs, AreRunsOf runs t
  /-- The blank runs are kept and the others capitalized, in order. -/
  words : ∀ t runs, AreRunsOf runs t →
    title t = runs.flatMap fun run => if run.all isBlank then run else capital run
  /-- Texts between blanks have titles of their own. -/
  separate : ∀ a w b, w ≠ [] → (∀ c ∈ w, isBlank c = true) →
    title (a ++ w ++ b) = title a ++ w ++ title b

/-- Titles are made word by word, whatever the characters become; in particular if they are put into
upper case. -/
theorem titlesWords_titleCase : (∀ up, TitlesWords (titleFrom up true) (capitalizeBy up)) ∧
    TitlesWords titleCase capitalize := by
  have hwords (up : Char → Text) : TitlesWords (titleFrom up true) (capitalizeBy up) := by
    refine ⟨?_, fun t runs h => h.titleFrom_eq up, ?_⟩
    · exact fun t => ⟨_, areRunsOf_iff.mpr rfl, fun runs h => (areRunsOf_iff.mp h).symm⟩
    · intro a w b hne hblank
      rw [titleFrom_append, startsBehind_append, startsBehind_of_blank hne hblank,
        titleFrom_append, titleFrom_of_blank up hblank]
  exact ⟨hwords, hwords upperChar⟩

example : titleCase "ßa\u00A0b1 c\tD".toList = "SSa\u00A0B1 C\tD".toList := by decide +kernel

end DocTemplate.Text
