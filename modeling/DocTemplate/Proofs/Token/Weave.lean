import DocTemplate.Proofs.Token.Items

/-!
# Weaving marks and text into tokens

The tokens tile what they are woven from: what an isolated tag takes along is missing in the next
text and nowhere else. A tag takes along no more than its own line, and stays where its mark is.
-/

namespace DocTemplate

open Fence Text

/-! ## Ends of lines -/

/-- The end of a line is told by what stands up to its line feed. -/
theorem startsWithLineEnd_append {s : Text} (h : '\n' ∈ s) (t : Text) :
    startsWithLineEnd (s ++ t) = startsWithLineEnd s := by
  rw [startsWithLineEnd, startsWithLineEnd, takeWhile_append_of_mem h (by simp)]

/-- A text with a visible character is more than spaces and tabs. -/
theorem isHorizontalOnly_eq_false {t : Text} {c : Char} (hc : isBlank c = false) (hmem : c ∈ t) :
    isHorizontalOnly t = false := by
  refine List.all_eq_false.mpr ⟨c, hmem, fun hhorizontal => ?_⟩
  rw [isBlank_of_isHorizontal hhorizontal] at hc
  cases hc

/-- A line does not end in front of a visible character. -/
theorem startsWithLineEnd_append_cons {gap : Text} (hgap : '\n' ∉ gap) {c : Char}
    (hc : isBlank c = false) (more : Text) : startsWithLineEnd (gap ++ c :: more) = false := by
  have hline : c ≠ '\n' := by
    rintro rfl
    exact absurd hc (by decide)
  have hreturn : c ≠ '\r' := by
    rintro rfl
    exact absurd hc (by decide)
  have hmem : c ∈ (gap ++ c :: more).takeWhile (· != '\n') := by
    rw [List.takeWhile_append_of_pos (forall_ne_of_not_mem hgap),
      List.takeWhile_cons_of_pos (by simpa using hline)]
    exact List.mem_append_right _ List.mem_cons_self
  exact isHorizontalOnly_eq_false hc (mem_dropSuffix hmem (by simpa using hreturn))

/-- A line feed in front of the next mark ends the line. -/
theorem reachesLineEnd_of_mem {items : List Item} {tail : Text} (h : '\n' ∈ nextText items tail) :
    reachesLineEnd items tail = startsWithLineEnd (nextText items tail) := by
  cases items with
  | nil => rfl
  | cons i rest => exact if_pos (List.contains_iff_mem.mpr h)

/-- What is taken along ends with a line feed in front of the next mark. -/
theorem lineTrail_of_mem {items : List Item} {tail : Text} (h : '\n' ∈ nextText items tail) :
    lineTrail items tail = throughLineFeed (nextText items tail) := by
  cases items with
  | nil => rfl
  | cons i rest => exact if_pos (List.contains_iff_mem.mpr h)

/-! ## What tags take along -/

/-- What an isolated tag takes along is a first part of the text in front of the next mark. -/
theorem isPrefix_lineTrail (items : List Item) (tail : Text) :
    lineTrail items tail <+: nextText items tail := by
  cases items with
  | nil => exact isPrefix_throughLineFeed tail
  | cons i items =>
    rw [lineTrail, nextText]
    split
    · exact isPrefix_throughLineFeed i.gap
    · exact List.nil_prefix

/-- A tag says its inner text and takes along parts of its own line; only an isolated statement
takes along anything. -/
structure Tag.Sound (t : Tag) : Prop where
  /-- The tag says what stands between its delimiters. -/
  inner : (Mark.tag t.kind t.content t.raw t.fenced).SaysInner
  /-- What it takes along in front of it lies on its line. -/
  lead : '\n' ∉ t.lead
  /-- What it takes along behind it ends with the line. -/
  trail : '\n' ∉ t.trail.dropLast
  /-- Only a statement has a line of its own. -/
  isolated : t.isolated = true → t.kind.isStatement = true
  /-- A tag among other things on its line takes nothing along. -/
  inline : t.isolated = false → t.lead = [] ∧ t.trail = []

/-- An interpolation takes nothing along. -/
theorem Tag.Sound.source_eq_raw {t : Tag} (h : t.Sound) (hkind : t.kind = .interpolation) :
    t.source = t.raw := by
  have hisolated : t.isolated = false := by
    rw [Bool.eq_false_iff]
    intro hisolated
    have hstatement := h.isolated hisolated
    rw [hkind] at hstatement
    cases hstatement
  obtain ⟨hlead, htrail⟩ := h.inline hisolated
  rw [Tag.source, hlead, htrail, List.nil_append, List.append_nil]

/-- A token is sound if it is no tag or a sound one. -/
def Token.Sound : Token → Prop
  | .tag t => t.Sound
  | _ => True

private theorem not_mem_dropLast_lineTrail (items : List Item) (tail : Text) :
    '\n' ∉ (lineTrail items tail).dropLast := by
  cases items with
  | nil => exact not_mem_dropLast_throughLineFeed tail
  | cons i items =>
    rw [lineTrail]
    split
    · exact not_mem_dropLast_throughLineFeed i.gap
    · simp

/-- The tag of a mark, woven between the texts `gap` and `next`: behind the text `front` it takes
along the rest of `gap` and the first `taken` characters of `next`. -/
structure Tag.WovenFrom (t : Tag) (mark : Mark) (front gap next : Text) (taken : Nat) : Prop where
  /-- The tag is the mark. -/
  mark_eq : mark = .tag t.kind t.content t.raw t.fenced
  /-- What it takes along in front of it is the end of the text there. -/
  gap_eq : front ++ t.lead = gap
  /-- What it takes along behind it is the start of the text there. -/
  trail_eq : t.trail = next.take taken
  /-- It takes along no more than this text. -/
  taken_le : taken ≤ next.length
  /-- The tag is sound if the mark says its inner text. -/
  sound : mark.SaysInner → t.Sound

/-- A mark that is a tag is woven into the tag behind a text. -/
theorem exists_weave_tag (clear : Bool) (taken : Nat) (whole : Text) (kind : TagKind)
    (content raw : Text) (fenced : Bool) (rest : List Item) (tail : Text) :
    ∃ front t clear' taken',
      weave clear taken (⟨whole, .tag kind content raw fenced⟩ :: rest) tail =
        textToken front ++ .tag t :: weave clear' taken' rest tail ∧
      t.WovenFrom (.tag kind content raw fenced) front (whole.drop taken) (nextText rest tail)
        taken' := by
  rw [weave]
  dsimp only
  split
  · rename_i hclear
    simp only [Bool.and_eq_true] at hclear
    have htrail := isPrefix_lineTrail rest tail
    refine ⟨_, _, _, _, rfl, rfl, beforeLastLine_append_lastLine _,
      List.prefix_iff_eq_take.mp htrail, htrail.length_le, fun hinner => ?_⟩
    exact ⟨hinner, not_mem_lastLine _, not_mem_dropLast_lineTrail rest tail,
      fun _ => hclear.1.1, nofun⟩
  · refine ⟨_, _, _, 0, rfl, rfl, List.append_nil _, rfl, Nat.zero_le _, fun hinner => ?_⟩
    exact ⟨hinner, by simp, by simp, nofun, fun _ => ⟨rfl, rfl⟩⟩

/-! ## What the tokens are -/

@[simp] theorem flatMap_source_textToken (t : Text) : (textToken t).flatMap Token.source = t := by
  by_cases h : t = []
  · simp [textToken, h]
  · simp [textToken, h, Token.source]

/-- The tokens tile what they are woven from. -/
theorem weave_source (clear : Bool) {taken : Nat} (items : List Item) (tail : Text)
    (htaken : taken ≤ (nextText items tail).length) :
    (weave clear taken items tail).flatMap Token.source =
      (items.flatMap Item.source ++ tail).drop taken := by
  induction items generalizing clear taken with
  | nil => simp [weave]
  | cons i rest ih =>
    obtain ⟨whole, mark⟩ := i
    rw [nextText] at htaken
    have hdrop : (List.flatMap Item.source (⟨whole, mark⟩ :: rest) ++ tail).drop taken =
        whole.drop taken ++ (mark.source ++ (rest.flatMap Item.source ++ tail)) := by
      rw [List.flatMap_cons, Item.source, List.append_assoc, List.append_assoc,
        List.drop_append_of_le_length htaken]
    rw [hdrop]
    cases mark with
    | escaped literal =>
      simp [weave, ih, Token.source, Mark.source]
    | tag kind content raw fenced =>
      obtain ⟨front, t, clear', taken', hweave, hwoven⟩ :=
        exists_weave_tag clear taken whole kind content raw fenced rest tail
      have hraw : raw = t.raw := (Mark.tag.inj hwoven.mark_eq).2.2.1
      have hnext : t.trail ++ (rest.flatMap Item.source ++ tail).drop taken' =
          rest.flatMap Item.source ++ tail := by
        obtain ⟨more, hmore⟩ := isPrefix_nextText rest tail
        rw [hwoven.trail_eq, ← hmore, List.drop_append_of_le_length hwoven.taken_le,
          ← List.append_assoc, List.take_append_drop]
      rw [hweave, List.flatMap_append, List.flatMap_cons, ih _ hwoven.taken_le,
        flatMap_source_textToken, ← hwoven.gap_eq]
      simp only [Token.source, Tag.source, Mark.source, List.append_assoc, hraw, hnext]

/-- A text makes at most one token, the text. -/
theorem eq_text_of_mem_textToken {t : Text} {token : Token} (h : token ∈ textToken t) :
    token = .text t := by
  unfold textToken at h
  split at h
  · cases h
  · exact List.mem_singleton.mp h

private theorem sound_of_mem_textToken {t : Text} {token : Token} (h : token ∈ textToken t) :
    token.Sound := by
  obtain rfl := eq_text_of_mem_textToken h
  trivial

/-- Marks that say their inner text are woven into sound tags. -/
theorem sound_of_mem_weave {clear : Bool} {taken : Nat} {items : List Item} {tail : Text}
    (hitems : ∀ i ∈ items, i.mark.SaysInner) {token : Token}
    (h : token ∈ weave clear taken items tail) : token.Sound := by
  induction items generalizing clear taken with
  | nil => exact sound_of_mem_textToken h
  | cons i rest ih =>
    obtain ⟨whole, mark⟩ := i
    obtain ⟨hmark, hrest⟩ := List.forall_mem_cons.mp hitems
    cases mark with
    | escaped literal =>
      rw [weave] at h
      rcases List.mem_append.mp h with h | h
      · exact sound_of_mem_textToken h
      · rcases List.mem_cons.mp h with rfl | h
        · trivial
        · exact ih hrest h
    | tag kind content raw fenced =>
      obtain ⟨front, t, clear', taken', hweave, hwoven⟩ :=
        exists_weave_tag clear taken whole kind content raw fenced rest tail
      rw [hweave] at h
      rcases List.mem_append.mp h with h | h
      · exact sound_of_mem_textToken h
      · rcases List.mem_cons.mp h with rfl | h
        · exact hwoven.sound hmark
        · exact ih hrest h

/-! ## Fence flags of tokens -/

/-- The token starts on an unfenced line, by the flags from its first character on; for a tag it is
the tag itself that counts, and for text nothing is asked. -/
def Token.StartsUnfenced (flags : List Bool) : Token → Prop
  | .text _ => True
  | .tag t => (flagsAfter flags t.lead).headD false = false
  | .escaped _ => flags.headD false = false

private theorem along_textToken {flags : List Bool} {t : Text} {tokens : List Token}
    (h : Along Token.StartsUnfenced Token.source (flagsAfter flags t) tokens) :
    Along Token.StartsUnfenced Token.source flags (textToken t ++ tokens) := by
  by_cases ht : t = []
  · simpa [textToken, ht] using h
  · rw [textToken, if_neg ht]
    exact ⟨trivial, h⟩

/-- Tokens start where their marks do. -/
theorem along_weave (clear : Bool) {taken : Nat} {items : List Item} {tail : Text}
    {flags : List Bool} (htaken : taken ≤ (nextText items tail).length)
    (h : Along Item.StartsUnfenced Item.source flags items) :
    Along Token.StartsUnfenced Token.source
      (flagsAfter flags ((nextText items tail).take taken)) (weave clear taken items tail) := by
  induction items generalizing clear taken flags with
  | nil =>
    rw [weave, ← List.append_nil (textToken _)]
    exact along_textToken trivial
  | cons i rest ih =>
    obtain ⟨whole, mark⟩ := i
    obtain ⟨hstart, hrest⟩ := h
    rw [Item.StartsUnfenced] at hstart
    rw [nextText] at htaken ⊢
    have hgap : flagsAfter (flagsAfter flags (whole.take taken)) (whole.drop taken) =
        flagsAfter flags whole := by
      rw [← flagsAfter_append, List.take_append_drop]
    cases mark with
    | escaped literal =>
      rw [weave]
      apply along_textToken
      rw [hgap]
      refine ⟨hstart, ?_⟩
      have hnext := ih false (Nat.zero_le (nextText rest tail).length) hrest
      simpa [Item.source, Mark.source, Token.source] using hnext
    | tag kind content raw fenced =>
      obtain ⟨front, t, clear', taken', hweave, hwoven⟩ :=
        exists_weave_tag clear taken whole kind content raw fenced rest tail
      have hraw : raw = t.raw := (Mark.tag.inj hwoven.mark_eq).2.2.1
      have hnext := ih clear' hwoven.taken_le hrest
      rw [← hwoven.trail_eq] at hnext
      rw [← hwoven.gap_eq, flagsAfter_append] at hgap
      rw [hweave]
      apply along_textToken
      refine ⟨?_, ?_⟩
      · rw [Token.StartsUnfenced, hgap]
        exact hstart
      · rw [Token.source, Tag.source, flagsAfter_append, flagsAfter_append, hgap]
        simpa [Item.source, Mark.source, hraw] using hnext

end DocTemplate
