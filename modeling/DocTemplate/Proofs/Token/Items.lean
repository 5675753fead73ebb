import DocTemplate.Token
import DocTemplate.Proofs.Text.Blank
import DocTemplate.Proofs.Token.Cut

/-!
# Reading constructs into marks

Reading keeps the source whole: every mark with the text in front of it, and the tail. What a mark
says is what stands between its delimiters. Reading goes piece by piece, because of the text in
front of a construct only its last line matters.
-/

namespace DocTemplate

open Fence Text

/-- The part of the source that a mark covers. -/
def Mark.source : Mark → Text
  | .tag _ _ raw _ => raw
  | .escaped literal => notVar ++ literal

/-- The part of the source that a mark covers with the text in front of it. -/
def Item.source (i : Item) : Text := i.gap ++ i.mark.source

/-- The text in front of the next mark, or the tail. -/
def nextText : List Item → Text → Text
  | [], tail => tail
  | i :: _, _ => i.gap

/-- The text in front of the next mark is a first part of what is to come. -/
theorem isPrefix_nextText (items : List Item) (tail : Text) :
    nextText items tail <+: items.flatMap Item.source ++ tail := by
  cases items with
  | nil => exact List.prefix_rfl
  | cons i items =>
    rw [List.flatMap_cons, List.append_assoc]
    exact (List.prefix_append ..).trans (List.prefix_append ..)

/-- Only an interpolation behind the escaping word is read as escaped. -/
theorem suffix_of_reading_eq_escaped {s : Settings} {c : Construct} (h : c.reading s = .escaped) :
    notVar.isSuffixOf c.gap = true := by
  unfold Construct.reading at h
  split at h
  · dsimp only at h
    split at h
    · split at h <;> cases h
    · cases h
  · split at h
    · split at h
      · assumption
      · cases h
    · cases h

/-- An escaped construct keeps its source: the escaping word moves from the gap to the mark. -/
theorem source_of_reading_eq_escaped {s : Settings} {c : Construct} (h : c.reading s = .escaped)
    (pending : Text) :
    Item.source ⟨pending ++ dropSuffix notVar c.gap, .escaped c.raw⟩ = pending ++ c.source := by
  have hgap := dropSuffix_append (suffix_of_reading_eq_escaped h)
  rw [Item.source, Mark.source, Construct.source, ← List.append_assoc, List.append_assoc pending,
    hgap, List.append_assoc]

/-- Reading keeps the source whole. -/
theorem collectItems_source (s : Settings) (pending : Text) (cs : List Construct) (tail : Text) :
    (collectItems s pending cs tail).1.flatMap Item.source ++ (collectItems s pending cs tail).2 =
      pending ++ cs.flatMap Construct.source ++ tail := by
  induction cs generalizing pending with
  | nil => simp [collectItems]
  | cons c cs ih =>
    rw [collectItems]
    cases hreading : c.reading s with
    | plain => simp [ih]
    | tag kind content => simp [Item.source, Mark.source, Construct.source, ih]
    | escaped => simp [source_of_reading_eq_escaped hreading, ih]

/-- What is read from a construct as a mark. -/
def Construct.ReadsAs (s : Settings) (c : Construct) : Mark → Prop
  | .tag kind content raw fenced =>
    c.reading s = .tag kind content ∧ raw = c.raw ∧ fenced = c.fenced
  | .escaped literal => c.reading s = .escaped ∧ literal = c.raw

/-- Every mark is read from one of the constructs. -/
theorem exists_readsAs_of_mem_collectItems {s : Settings} {pending : Text} {cs : List Construct}
    {tail : Text} {i : Item} (h : i ∈ (collectItems s pending cs tail).1) :
    ∃ c ∈ cs, c.ReadsAs s i.mark := by
  induction cs generalizing pending with
  | nil => cases h
  | cons c cs ih =>
    have hrest {pending : Text} (h : i ∈ (collectItems s pending cs tail).1) :
        ∃ c' ∈ c :: cs, c'.ReadsAs s i.mark := by
      obtain ⟨c', hc', hreads⟩ := ih h
      exact ⟨c', List.mem_cons_of_mem c hc', hreads⟩
    rw [collectItems] at h
    cases hreading : c.reading s with
    | plain =>
      rw [hreading] at h
      exact hrest h
    | tag kind content =>
      rw [hreading] at h
      rcases List.mem_cons.mp h with rfl | h
      · exact ⟨c, List.mem_cons_self, hreading, rfl, rfl⟩
      · exact hrest h
    | escaped =>
      rw [hreading] at h
      rcases List.mem_cons.mp h with rfl | h
      · exact ⟨c, List.mem_cons_self, hreading, rfl⟩
      · exact hrest h

/-- A construct ends with a brace. -/
theorem Construct.getLast?_raw (c : Construct) : c.raw.getLast? = some '}' := by
  simp [raw, Delimiter.closer]

/-- Every mark that is read ends with a brace. -/
theorem getLast?_source_of_mem_collectItems {s : Settings} {pending : Text} {cs : List Construct}
    {tail : Text} {i : Item} (h : i ∈ (collectItems s pending cs tail).1) :
    i.mark.source.getLast? = some '}' := by
  obtain ⟨c, -, hreads⟩ := exists_readsAs_of_mem_collectItems h
  cases hmark : i.mark with
  | tag kind content raw fenced =>
    rw [hmark] at hreads
    obtain ⟨-, rfl, -⟩ := hreads
    exact c.getLast?_raw
  | escaped literal =>
    rw [hmark] at hreads
    obtain ⟨-, rfl⟩ := hreads
    simp [Mark.source, List.getLast?_append, c.getLast?_raw]

/-- Every mark that is read starts with a visible character. -/
theorem exists_cons_source_of_mem_collectItems {s : Settings} {pending : Text}
    {cs : List Construct} {tail : Text} {i : Item} (h : i ∈ (collectItems s pending cs tail).1) :
    ∃ c more, i.mark.source = c :: more ∧ isBlank c = false := by
  obtain ⟨c, -, hreads⟩ := exists_readsAs_of_mem_collectItems h
  cases hmark : i.mark with
  | tag kind content raw fenced =>
    rw [hmark] at hreads
    obtain ⟨-, rfl, -⟩ := hreads
    exact ⟨_, _, rfl, by decide⟩
  | escaped literal => exact ⟨_, _, rfl, by decide⟩

/-! ## What marks say -/

/-- A tag is a construct whose inner text it says; a statement says it without dashes. -/
def Mark.SaysInner : Mark → Prop
  | .tag (.statement _) content raw _ =>
    ∃ inner, raw = Delimiter.statement.opener ++ inner ++ Delimiter.statement.closer ∧
      content = statementContent inner
  | .tag .interpolation content raw _ =>
    ∃ inner, raw = Delimiter.interpolation.opener ++ inner ++ Delimiter.interpolation.closer ∧
      content = trim inner
  | .escaped _ => True

private theorem saysInner_of_reading {s : Settings} {c : Construct} {kind : TagKind}
    {content : Text} (h : c.reading s = .tag kind content) :
    (Mark.tag kind content c.raw c.fenced).SaysInner := by
  unfold Construct.reading at h
  split at h
  · rename_i hdelimiter
    dsimp only at h
    split at h
    · split at h
      · cases h
        exact ⟨c.inner, by rw [Construct.raw, hdelimiter], rfl⟩
      · cases h
    · cases h
  · rename_i hdelimiter
    split at h
    · split at h
      · split at h <;> cases h
      · cases h
        exact ⟨c.inner, by rw [Construct.raw, hdelimiter], rfl⟩
    · cases h

/-- Every mark that is read says the inner text of its construct. -/
theorem saysInner_of_mem_collectItems {s : Settings} {pending : Text} {cs : List Construct}
    {tail : Text} {i : Item} (h : i ∈ (collectItems s pending cs tail).1) : i.mark.SaysInner := by
  obtain ⟨c, -, hreads⟩ := exists_readsAs_of_mem_collectItems h
  cases hmark : i.mark with
  | tag kind content raw fenced =>
    rw [hmark] at hreads
    obtain ⟨hreading, rfl, rfl⟩ := hreads
    exact saysInner_of_reading hreading
  | escaped literal => trivial

/-! ## Fence flags of marks -/

/-- The mark starts on an unfenced line, by the flags from its gap on. -/
def Item.StartsUnfenced (flags : List Bool) (i : Item) : Prop :=
  (flagsAfter flags i.gap).headD false = false

/-- Marks start where their constructs do. -/
theorem along_collectItems {s : Settings} {pending : Text} {cs : List Construct}
    {flags : List Bool} (tail : Text)
    (h : Along Construct.StartsUnfenced Construct.source (flagsAfter flags pending) cs) :
    Along Item.StartsUnfenced Item.source flags (collectItems s pending cs tail).1 := by
  induction cs generalizing pending flags with
  | nil => trivial
  | cons c cs ih =>
    obtain ⟨hstart, hrest⟩ := h
    rw [Construct.StartsUnfenced] at hstart
    rw [collectItems]
    cases hreading : c.reading s with
    | plain => exact ih (by rwa [flagsAfter_append])
    | tag kind content =>
      refine ⟨by rwa [Item.StartsUnfenced, flagsAfter_append], ih ?_⟩
      simpa [Item.source, Mark.source, Construct.source] using hrest
    | escaped =>
      have hgap := dropSuffix_append (suffix_of_reading_eq_escaped hreading)
      have hline (flags : List Bool) : flagsAfter flags notVar = flags :=
        flagsAfter_of_not_mem (by decide) flags
      rw [← hgap, flagsAfter_append, hline] at hstart
      refine ⟨by rwa [Item.StartsUnfenced, flagsAfter_append], ih ?_⟩
      rw [Construct.source, ← hgap] at hrest
      simpa [Item.source, Mark.source] using hrest

/-! ## Reading piece by piece -/

/-- The marks of a cut, each with the text in front of it, and the tail. -/
def Cut.items (s : Settings) (cut : Cut) : List Item × Text :=
  collectItems s [] cut.constructs cut.tail

/-- Puts text in front of the first mark, or of the tail. -/
def prependText (t : Text) : List Item × Text → List Item × Text
  | ([], tail) => ([], t ++ tail)
  | (i :: items, tail) => ({ i with gap := t ++ i.gap } :: items, tail)

/-- Pending text stands in front of all that is read. -/
theorem collectItems_pending (s : Settings) (t pending : Text) (cs : List Construct) (tail : Text) :
    collectItems s (t ++ pending) cs tail = prependText t (collectItems s pending cs tail) := by
  induction cs generalizing pending with
  | nil => simp [collectItems, prependText]
  | cons c cs ih =>
    rw [collectItems, collectItems]
    cases c.reading s with
    | plain => exact (congrArg (collectItems s · cs tail) (List.append_assoc ..)).trans (ih _)
    | tag kind content => simp [prependText]
    | escaped => simp [prependText]

/-- What comes first is read first, and the text behind its last mark is pending for the rest. -/
theorem collectItems_append (s : Settings) (pending : Text) (cs cs' : List Construct)
    (tail : Text) :
    collectItems s pending (cs ++ cs') tail =
      ((collectItems s pending cs []).1 ++
          (collectItems s (collectItems s pending cs []).2 cs' tail).1,
        (collectItems s (collectItems s pending cs []).2 cs' tail).2) := by
  induction cs generalizing pending with
  | nil => simp [collectItems]
  | cons c cs ih =>
    rw [List.cons_append, collectItems, collectItems]
    cases c.reading s with
    | plain => exact ih _
    | tag kind content => simp [ih]
    | escaped => simp [ih]

/-- A tail stays behind the last mark. -/
theorem collectItems_tail (s : Settings) (pending : Text) (cs : List Construct) (tail : Text) :
    collectItems s pending cs tail =
      ((collectItems s pending cs []).1, (collectItems s pending cs []).2 ++ tail) := by
  simpa [collectItems] using collectItems_append s pending cs [] tail

/-- A text without some character cannot reach into a part that ends with that character. -/
theorem isSuffixOf_append {suffix s : Text} {c : Char} (hsuffix : c ∉ suffix)
    (hs : s = [] ∨ s.getLast? = some c) (t : Text) :
    suffix.isSuffixOf (s ++ t) = suffix.isSuffixOf t := by
  rw [Bool.eq_iff_iff, List.isSuffixOf_iff_suffix, List.isSuffixOf_iff_suffix]
  refine ⟨fun h => ?_, fun h => h.trans (List.suffix_append s t)⟩
  rcases List.suffix_or_suffix_of_suffix h (List.suffix_append s t) with hst | ⟨front, rfl⟩
  · exact hst
  · obtain ⟨before, hbefore⟩ := h
    rw [← List.append_assoc] at hbefore
    have hfront : before ++ front = s := List.append_cancel_right hbefore
    rcases List.eq_nil_or_concat front with rfl | ⟨front, d, rfl⟩
    · exact List.suffix_rfl
    · rcases hs with rfl | hs
      · simp at hfront
      · obtain rfl : d = c := by simpa [← hfront] using hs
        simp at hsuffix

/-- In front of a text that ends with the suffix anything else stays. -/
theorem dropSuffix_append_of_suffix {suffix t : Text} (h : suffix.isSuffixOf t = true) (s : Text) :
    dropSuffix suffix (s ++ t) = s ++ dropSuffix suffix t := by
  have hst : suffix.isSuffixOf (s ++ t) = true :=
    List.isSuffixOf_iff_suffix.mpr
      ((List.isSuffixOf_iff_suffix.mp h).trans (List.suffix_append s t))
  have hwhole : dropSuffix suffix (s ++ t) ++ suffix = (s ++ dropSuffix suffix t) ++ suffix := by
    rw [dropSuffix_append hst, List.append_assoc, dropSuffix_append h]
  exact List.append_cancel_right hwhole

/-- What a construct is does not depend on the lines in front of its own. -/
theorem reading_of_endsLine {t : Text} (ht : EndsLine t) (s : Settings) (c : Construct) :
    Construct.reading s { c with gap := t ++ c.gap } = c.reading s := by
  have hnotVar : '\n' ∉ notVar := by decide
  simp only [Construct.reading, isSuffixOf_append hnotVar ht]

/-- Text that ends its line may as well be pending as stand in the gap. -/
theorem collectItems_gap {t : Text} (ht : EndsLine t) (s : Settings) (pending : Text)
    (c : Construct) (cs : List Construct) (tail : Text) :
    collectItems s pending ({ c with gap := t ++ c.gap } :: cs) tail =
      collectItems s (pending ++ t) (c :: cs) tail := by
  rw [collectItems, collectItems, reading_of_endsLine ht]
  cases hreading : c.reading s with
  | plain => simp [Construct.source, Construct.raw]
  | tag kind content => simp [Construct.raw]
  | escaped =>
    simp [Construct.raw, dropSuffix_append_of_suffix (suffix_of_reading_eq_escaped hreading)]

/-- The marks of two cuts in a row are those of the first, then those of the second, if the first
one ends its line. -/
theorem Cut.items_append {cut : Cut} (h : EndsLine cut.tail) (s : Settings) (cut' : Cut) :
    (cut.append cut').items s =
      ((cut.items s).1 ++ (prependText (cut.items s).2 (cut'.items s)).1,
        (prependText (cut.items s).2 (cut'.items s)).2) := by
  rw [items, items, items, append]
  cases hconstructs : cut'.constructs with
  | nil =>
    rw [collectItems_tail, collectItems_tail s [] cut.constructs cut.tail]
    simp [collectItems, prependText]
  | cons c cs =>
    rw [collectItems_append, collectItems_gap h, ← collectItems_pending,
      collectItems_tail s [] cut.constructs cut.tail, List.append_nil]

end DocTemplate
