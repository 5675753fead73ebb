import DocTemplate.Proofs.Node.Onto
import DocTemplate.Proofs.Token.Scan

/-!
# Scanning whole lines and what follows them

Behind whole lines that leave no fence open, a source is scanned as if it started there: the tokens
of the lines come first, then those of the rest. Only a text at the border may be one token or two,
which makes no difference to the tree.
-/

namespace DocTemplate

open Fence Text

/-- Two lists of tokens make the same tree wherever they stand. -/
def BuildAlike (tokens tokens' : List Token) : Prop :=
  ∀ (b : Builder) (location : Location), b.acceptAll location tokens = b.acceptAll location tokens'

/-- Tokens make the same tree as themselves. -/
theorem BuildAlike.refl (tokens : List Token) : BuildAlike tokens tokens := fun _ _ => rfl

/-- What makes the same tree as something else makes the same tree as what that is like. -/
theorem BuildAlike.trans {tokens tokens' tokens'' : List Token} (h : BuildAlike tokens tokens')
    (h' : BuildAlike tokens' tokens'') : BuildAlike tokens tokens'' :=
  fun b location => (h b location).trans (h' b location)

/-- What makes the same tree may be exchanged behind other tokens. -/
theorem BuildAlike.append_left {tokens tokens' : List Token} (h : BuildAlike tokens tokens')
    (front : List Token) : BuildAlike (front ++ tokens) (front ++ tokens') := by
  intro b location
  rw [Builder.acceptAll_append, Builder.acceptAll_append]
  cases b.acceptAll location front with
  | error failure => rfl
  | ok b' => exact h b' _

/-- Text is pushed whether it makes a token or not. -/
theorem Builder.acceptAll_textToken (b : Builder) (location : Location) (t : Text)
    (tokens : List Token) :
    b.acceptAll location (textToken t ++ tokens) =
      (b.pushText t).acceptAll (location.after t) tokens := by
  by_cases ht : t = []
  · subst ht
    rfl
  · rw [textToken, if_neg ht]
    rfl

/-- A text makes the same tree in one token and in two. -/
theorem buildAlike_textToken (s t : Text) (tokens : List Token) :
    BuildAlike (textToken (s ++ t) ++ tokens) (textToken s ++ (textToken t ++ tokens)) := by
  intro b location
  rw [Builder.acceptAll_textToken, Builder.acceptAll_textToken, Builder.acceptAll_textToken,
    Builder.pushText_pushText, Location.after_append]

/-! ## Weaving -/

section Weave

variable {tail : Text} (hmem : '\n' ∈ tail)

include hmem

private theorem contains_lineFeed_append (t : Text) : (tail ++ t).contains '\n' = true :=
  List.contains_iff_mem.mpr (List.mem_append_left t hmem)

/-- Whether the line of a tag ends behind it does not depend on the lines below. -/
theorem reachesLineEnd_append (items : List Item) (below : List Item × Text) :
    reachesLineEnd (items ++ (prependText tail below).1) (prependText tail below).2 =
      reachesLineEnd items tail := by
  induction items with
  | nil =>
    obtain ⟨items, last⟩ := below
    cases items with
    | nil => exact startsWithLineEnd_append hmem last
    | cons i rest =>
      exact (if_pos (contains_lineFeed_append hmem i.gap)).trans
        (startsWithLineEnd_append hmem i.gap)
  | cons i items ih => rw [List.cons_append, reachesLineEnd, reachesLineEnd, ih]

/-- What an isolated tag takes along does not depend on the lines below it. -/
theorem lineTrail_append (items : List Item) (below : List Item × Text) :
    lineTrail (items ++ (prependText tail below).1) (prependText tail below).2 =
      lineTrail items tail := by
  cases items with
  | nil =>
    obtain ⟨items, last⟩ := below
    cases items with
    | nil => exact throughLineFeed_append_of_mem hmem last
    | cons i rest =>
      exact (if_pos (contains_lineFeed_append hmem i.gap)).trans
        (throughLineFeed_append_of_mem hmem i.gap)
  | cons i items => rfl

variable (hends : EndsLine tail)

include hends

/-- Whether a tag may be isolated does not depend on whole lines in front of it. -/
theorem endsWithLineStart_append (clear : Bool) (gap : Text) :
    endsWithLineStart clear (tail ++ gap) = endsWithLineStart true gap := by
  rw [endsWithLineStart, endsWithLineStart, hends.lastLine_append,
    contains_lineFeed_append hmem, Bool.or_true, Bool.true_or]

/-- Behind whole lines the weaving starts anew, and what is left of the lines is text. -/
theorem weave_prependText (clear : Bool) {taken : Nat} (htaken : taken ≤ tail.length)
    (below : List Item × Text) :
    BuildAlike (weave clear taken (prependText tail below).1 (prependText tail below).2)
      (textToken (tail.drop taken) ++ weave true 0 below.1 below.2) := by
  have hleft : EndsLine (tail.drop taken) :=
    EndsLine.of_append (s := tail.take taken) (by rwa [List.take_append_drop])
  have hdrop (t : Text) : (tail ++ t).drop taken = tail.drop taken ++ t :=
    List.drop_append_of_le_length htaken
  obtain ⟨items, last⟩ := below
  cases items with
  | nil =>
    rw [prependText, weave, weave, hdrop, List.drop_zero]
    simpa using buildAlike_textToken (tail.drop taken) last []
  | cons i rest =>
    obtain ⟨gap, mark⟩ := i
    cases mark with
    | escaped literal =>
      rw [prependText, weave, weave, hdrop, List.drop_zero]
      exact buildAlike_textToken _ _ _
    | tag kind content raw fenced =>
      rw [prependText, weave, weave, hdrop, endsWithLineStart_append hmem hends, List.drop_zero]
      dsimp only
      split
      · rw [hleft.lastLine_append, hleft.beforeLastLine_append]
        exact buildAlike_textToken _ _ _
      · exact buildAlike_textToken _ _ _

/-- Whole lines are woven as if nothing followed, and what follows as if nothing stood in front. -/
theorem weave_append (clear : Bool) {taken : Nat} {items : List Item}
    (htaken : taken ≤ (nextText items tail).length) (below : List Item × Text) :
    BuildAlike (weave clear taken (items ++ (prependText tail below).1) (prependText tail below).2)
      (weave clear taken items tail ++ weave true 0 below.1 below.2) := by
  -- The tail holds a line feed, so no line of a mark in front of it reaches what follows.
  induction items generalizing clear taken with
  | nil => exact weave_prependText hmem hends clear htaken below
  | cons i rest ih =>
    obtain ⟨whole, mark⟩ := i
    cases mark with
    | escaped literal =>
      have hrest := ih false (Nat.zero_le (nextText rest tail).length)
      have hfront := hrest.append_left (textToken (whole.drop taken) ++ [.escaped literal])
      rw [List.cons_append, weave, weave]
      simpa using hfront
    | tag kind content raw fenced =>
      rw [List.cons_append, weave, weave, reachesLineEnd_append hmem, lineTrail_append hmem]
      dsimp only
      split
      · have hrest := ih (kind.isStatement && endsWithLineStart clear whole)
          (isPrefix_lineTrail rest tail).length_le
        have hfront := hrest.append_left (textToken (beforeLastLine (whole.drop taken)) ++
          [.tag ⟨kind, content, lastLine (whole.drop taken), raw, lineTrail rest tail, true,
            fenced⟩])
        simpa using hfront
      · have hrest := ih (kind.isStatement && endsWithLineStart clear whole)
          (Nat.zero_le (nextText rest tail).length)
        have hfront := hrest.append_left (textToken (whole.drop taken) ++
          [.tag ⟨kind, content, [], raw, [], false, fenced⟩])
        simpa using hfront

end Weave

/-! ## Scanning -/

/-- The tokens of two cuts in a row are those of the first, then those of the second, if the first
one ends its line. -/
theorem Cut.tokens_append {cut : Cut} (hends : EndsLine cut.tail) (hmem : '\n' ∈ cut.tail)
    (s : Settings) (cut' : Cut) :
    BuildAlike ((cut.append cut').tokens s) (cut.tokens s ++ cut'.tokens s) := by
  have htail : (cut.items s).2 = (collectItems s [] cut.constructs []).2 ++ cut.tail := by
    rw [items, collectItems_tail]
  have hends' : EndsLine (cut.items s).2 := htail ▸ hends.append_of_mem hmem _
  have hmem' : '\n' ∈ (cut.items s).2 := htail ▸ List.mem_append_right _ hmem
  have hweave := weave_append hmem' hends' true (Nat.zero_le (nextText (cut.items s).1 _).length)
    (cut'.items s)
  rw [tokens, ← items, items_append hends]
  exact hweave

/-- Whole lines that leave no fence open and have been scanned are the first part of any longer
source, and the rest of it is scanned on its own. -/
theorem scan_append {s : Settings} {front : Text} {tokens : List Token} (hends : EndsLine front)
    (heven : (lines front).countP isDelimiter % 2 = 0) (h : scan s front = .ok tokens)
    (rest : Text) :
    match scan s rest with
    | .ok tokens' => ∃ whole, scan s (front ++ rest) = .ok whole ∧
        BuildAlike whole (tokens ++ tokens')
    | .error u => scan s (front ++ rest) = .error { u with before := front ++ u.before } := by
  by_cases hnil : front = []
  · subst hnil
    obtain rfl : [] = tokens := Except.ok.inj ((scan_nil s).symm.trans h)
    cases hrest : scan s rest with
    | ok tokens' => exact ⟨tokens', hrest, .refl tokens'⟩
    | error u => exact hrest
  · have hflags (t : Text) := lineFlags_append hends heven t
    have hlength : (classify false (lines front).dropLast).length = front.count '\n' := by
      rw [length_classify, List.length_dropLast, length_lines, Nat.add_sub_cancel]
    obtain ⟨cut, hcut, rfl⟩ := scan_eq_ok_iff.mp h
    have hsource : cut.source = front := Cut.source_of_ofFlagged hcut
    obtain ⟨htail, hmem⟩ := Cut.endsLine_tail (hsource ▸ hends) (hsource ▸ hnil)
    have hfront := hflags []
    rw [List.append_nil] at hfront
    rw [Cut.ofSource, hfront] at hcut
    have hwhole := Cut.ofFlagged_append hends hlength hcut (lineFlags rest) rest
    rw [← hflags rest] at hwhole
    rw [scan, scan, Cut.ofSource, Cut.ofSource, hwhole]
    cases Cut.ofFlagged (!s.conditionsInCode) (lineFlags rest) rest with
    | ok cut' => exact ⟨_, rfl, Cut.tokens_append htail hmem s cut'⟩
    | error u => rfl

/-- The source is scanned into tokens that make the same tree as the given ones. -/
def ScansAlike (s : Settings) (source : Text) (tokens : List Token) : Prop :=
  ∃ whole, scan s source = .ok whole ∧ BuildAlike whole tokens

/-- The source is scanned like its own tokens. -/
theorem ScansAlike.of_scan {s : Settings} {source : Text} {tokens : List Token}
    (h : scan s source = .ok tokens) : ScansAlike s source tokens := ⟨tokens, h, .refl tokens⟩

/-- Whole lines that leave no fence open may be put in front of a source. -/
theorem ScansAlike.append {s : Settings} {front rest : Text} {tokens tokens' : List Token}
    (hends : EndsLine front) (heven : (lines front).countP isDelimiter % 2 = 0)
    (h : scan s front = .ok tokens) (hrest : ScansAlike s rest tokens') :
    ScansAlike s (front ++ rest) (tokens ++ tokens') := by
  obtain ⟨back, hback, halike⟩ := hrest
  have hwhole := scan_append hends heven h rest
  rw [hback] at hwhole
  obtain ⟨whole, hscan, halike'⟩ := hwhole
  exact ⟨whole, hscan, halike'.trans (halike.append_left tokens)⟩

end DocTemplate
