import DocTemplate.Engine
import DocTemplate.Proofs.Fence.Untouched
import DocTemplate.Proofs.Node.Onto

/-!
# A source without tags is rendered as it is

Text gets into the output in four ways: between constructs, as a construct that says nothing or is
switched off, as an interpolation that names no path, and as an opener in fenced code that is passed
over. In each of them it stays what it is, the pieces meet in one text again, and that text is the
source. All that can go wrong is an opener without a closer.
-/

namespace DocTemplate

open Fence Text

/-- A token that is shown as it is written: text, or an interpolation that names no path. -/
def Token.IsLiteral : Token → Prop
  | .text _ => True
  | .tag t => t.kind = .interpolation ∧ Pipe.ofText? t.content = none
  | .escaped _ => False

namespace Builder

/-- A literal token is text from its first to its last character. -/
theorem accept_of_isLiteral {token : Token} (hsound : token.Sound) (h : token.IsLiteral)
    (b : Builder) (location : Location) :
    b.accept location token = .ok (b.pushText token.source) := by
  cases token with
  | text t => rfl
  | tag t => exact Tag.Sound.accept_eq_pushText hsound h.1 h.2 b location
  | escaped literal => exact h.elim

/-- Literal tokens are one text. -/
theorem acceptAll_of_isLiteral {tokens : List Token} (hsound : ∀ token ∈ tokens, token.Sound)
    (h : ∀ token ∈ tokens, token.IsLiteral) (b : Builder) (location : Location) :
    b.acceptAll location tokens = .ok (b.pushText (tokens.flatMap Token.source)) := by
  induction tokens generalizing b location with
  | nil => rfl
  | cons token tokens ih =>
    obtain ⟨hfirst, hrest⟩ := List.forall_mem_cons.mp h
    obtain ⟨hsoundFirst, hsoundRest⟩ := List.forall_mem_cons.mp hsound
    have htokens := ih hsoundRest hrest (b.pushText token.source) (location.after token.source)
    rw [pushText_pushText] at htokens
    exact acceptAll_cons_eq_ok_iff.mpr
      ⟨_, accept_of_isLiteral hsoundFirst hfirst b location, htokens⟩

end Builder

section Rendering

variable {s : Settings} {source : Text}

/-- If all tokens of a source are literal, the source is what is shown. -/
theorem Engine.render_of_isLiteral {tokens : List Token} (hscan : scan s source = .ok tokens)
    (h : ∀ token ∈ tokens, token.IsLiteral) (filters : Filters) (vars : Variables) :
    Engine.render ⟨s, filters⟩ source vars = .ok source := by
  have hrun := Builder.acceptAll_of_isLiteral (sound_of_scan hscan) h Builder.start .start
  rw [source_of_scan hscan] at hrun
  have hnodes : Node.ofTokens tokens = .ok (Builder.addText source []).reverse :=
    Builder.ofTokens_eq_ok_iff.mpr ⟨_, hrun, rfl⟩
  have hparse : parseNodes s source = .ok (Builder.addText source []).reverse := by
    rw [parseNodes, hscan]
    exact hnodes
  rw [render, hparse]
  exact Node.renderAll_addText filters ⟨[], vars⟩ source []

/-- The source is shown as it is, or an opener in it has no closer; nothing else can happen. -/
def KeptOrUnterminated (s : Settings) (source : Text) : Prop :=
  ∀ (filters : Filters) (vars : Variables),
    Engine.render ⟨s, filters⟩ source vars = .ok source ∨
      ∃ u, scan s source = .error u ∧ Engine.render ⟨s, filters⟩ source vars = .error u.failure

/-- Plain constructs leave no marks, only text. -/
theorem collectItems_of_plain {cs : List Construct} (h : ∀ c ∈ cs, c.reading s = .plain)
    (pending tail : Text) :
    collectItems s pending cs tail = ([], pending ++ cs.flatMap Construct.source ++ tail) := by
  induction cs generalizing pending with
  | nil => simp [collectItems]
  | cons c cs ih =>
    obtain ⟨hfirst, hrest⟩ := List.forall_mem_cons.mp h
    rw [collectItems, hfirst]
    dsimp only
    rw [ih hrest, List.flatMap_cons, List.append_assoc pending]

/-- A source of which all constructs are plain is kept. -/
theorem keptOrUnterminated_of_plain
    (h : ∀ cut, Cut.ofSource (!s.conditionsInCode) source = .ok cut →
      ∀ c ∈ cut.constructs, c.reading s = .plain) : KeptOrUnterminated s source := by
  intro filters vars
  cases hcut : Cut.ofSource (!s.conditionsInCode) source with
  | error u =>
    have hscan := scan_eq_error_iff.mpr hcut
    refine Or.inr ⟨u, hscan, ?_⟩
    rw [Engine.render, Engine.parseNodes, hscan]
    rfl
  | ok cut =>
    have hitems := collectItems_of_plain (h cut hcut) [] cut.tail
    have hsource : [] ++ cut.constructs.flatMap Construct.source ++ cut.tail = source :=
      Cut.source_of_ofFlagged hcut
    rw [hsource] at hitems
    have hscan : scan s source = .ok (textToken source) := by
      refine scan_eq_ok_iff.mpr ⟨cut, hcut, ?_⟩
      rw [Cut.tokens, hitems]
      rfl
    refine Or.inl (Engine.render_of_isLiteral hscan ?_ filters vars)
    intro token htoken
    obtain rfl := eq_text_of_mem_textToken htoken
    trivial

end Rendering

/-! ## Plain constructs -/

/-- With every switch off all constructs are plain. -/
theorem Construct.reading_of_switchedOff {s : Settings} (hcycles : s.cycles = false)
    (hconditions : s.conditions = false) (hsubstitutions : s.substitutions = false)
    (c : Construct) : c.reading s = .plain := by
  have hoff : ∀ kind, s.enables kind = false := by
    intro kind
    cases kind with
    | statement k => cases k <;> assumption
    | interpolation => exact hsubstitutions
  unfold reading
  cases c.delimiter with
  | statement =>
    dsimp only
    split
    · rw [hoff, if_neg Bool.false_ne_true]
    · rfl
  | interpolation =>
    dsimp only
    rw [hoff, if_neg Bool.false_ne_true]

/-- A statement of which these are the insides is unknown: it starts with no keyword. -/
def IsUnknown (inner : Text) : Prop :=
  (words (statementContent inner)).head?.bind Keyword.ofText? = none

/-- An unknown statement is plain under all settings. -/
theorem Construct.reading_of_isUnknown {c : Construct} (hdelimiter : c.delimiter = .statement)
    (h : IsUnknown c.inner) (s : Settings) : c.reading s = .plain := by
  unfold reading
  rw [hdelimiter]
  dsimp only
  rw [IsUnknown] at h
  rw [h]

/-- An opener of a source, with `before` in front of it and `rest` behind it, comes to nothing: it
is on a line of fenced code in which tags are off, or it opens an unknown statement. -/
def IsIdle (s : Settings) (source before : Text) (d : Delimiter) (rest : Text) : Prop :=
  (s.conditionsInCode = false ∧ isInside source (utf8Size before) = true) ∨
    (d = .statement ∧ ∀ inner after,
      splitAtPair d.closingMark '}' rest = some (inner, after) → IsUnknown inner)

/-- If every opener of a source comes to nothing, its constructs are plain. -/
theorem Cut.reading_of_isIdle {s : Settings} {source : Text} {cut : Cut}
    (h : ∀ before d rest, source = before ++ (d.opener ++ rest) → IsIdle s source before d rest)
    (hcut : Cut.ofSource (!s.conditionsInCode) source = .ok cut) {c : Construct}
    (hc : c ∈ cut.constructs) : c.reading s = .plain := by
  obtain ⟨before, rest, after, hsource, hclose, hunfenced⟩ := Cut.exists_opener_of_mem hcut hc
  rcases h before c.delimiter rest hsource with ⟨hcode, hinside⟩ | ⟨hdelimiter, hunknown⟩
  · -- Openers on fenced lines are passed over, so no construct starts with one.
    exfalso
    have hopener : c.delimiter.opener ++ rest = '{' :: c.delimiter.mark :: rest := rfl
    rw [hopener] at hsource
    have hflag : isInside (before ++ '{' :: c.delimiter.mark :: rest) (utf8Size before) =
        (flagsAfter (lineFlags (before ++ '{' :: c.delimiter.mark :: rest)) before).headD false :=
      isInside_of_char (Nat.le_refl _) (Nat.lt_add_of_pos_right (Char.utf8Size_pos _))
    rw [← hsource, hunfenced (by rw [hcode]; rfl)] at hflag
    rw [hflag] at hinside
    exact Bool.false_ne_true hinside
  · exact Construct.reading_of_isUnknown hdelimiter (hunknown c.inner after hclose) s

/-! ## The whole -/

/-- A source is left as it is where nothing in it is a tag. -/
structure KeepsUntagged (s : Settings) (source : Text) : Prop where
  /-- If no interpolation is escaped and the only tags are interpolations that name no path, the
  source is shown as it is. -/
  literal : ∀ tokens, scan s source = .ok tokens → (∀ token ∈ tokens, token.IsLiteral) →
    ∀ (filters : Filters) (vars : Variables),
      Engine.render ⟨s, filters⟩ source vars = .ok source
  /-- With every switch off the source is shown as it is, or an opener in it has no closer. -/
  switchedOff : s.cycles = false → s.conditions = false → s.substitutions = false →
    KeptOrUnterminated s source
  /-- So it is if every construct is an unknown statement, whatever is in fenced code in which tags
  are off or inside of another construct. -/
  unknown : (∀ cut, Cut.ofSource (!s.conditionsInCode) source = .ok cut →
      ∀ c ∈ cut.constructs, c.delimiter = .statement ∧ IsUnknown c.inner) →
    KeptOrUnterminated s source
  /-- So it is if every opener, wherever it stands, comes to nothing, and if there is none. -/
  idle : (∀ before d rest, source = before ++ (d.opener ++ rest) →
      IsIdle s source before d rest) → KeptOrUnterminated s source

/-- Under all settings every source is left as it is where nothing in it is a tag. -/
theorem keepsUntagged (s : Settings) (source : Text) : KeepsUntagged s source where
  literal _ hscan h := Engine.render_of_isLiteral hscan h
  switchedOff hcycles hconditions hsubstitutions :=
    keptOrUnterminated_of_plain fun _ _ c _ =>
      c.reading_of_switchedOff hcycles hconditions hsubstitutions
  unknown h := by
    apply keptOrUnterminated_of_plain
    intro cut hcut c hc
    obtain ⟨hdelimiter, hunknown⟩ := h cut hcut c hc
    exact Construct.reading_of_isUnknown hdelimiter hunknown s
  idle h := keptOrUnterminated_of_plain fun _ hcut _ hc => Cut.reading_of_isIdle h hcut hc

/-- A document with an unknown statement, an interpolation that names no path and, in fenced code,
an opener without a closer. -/
def untaggedPage : Text :=
  "{% raw %}\r\n\x7b\x7b a b \x7d\x7d\n```\n\x7b% if x\n```\n".toList

/-- What the page is scanned into. -/
def untaggedTokens : List Token :=
  [.text "{% raw %}\r\n".toList,
    .tag ⟨.interpolation, "a b".toList, [], "\x7b\x7b a b \x7d\x7d".toList, [], false, false⟩,
    .text "\n```\n\x7b% if x\n```\n".toList]

/-- The page has a tag, and it is shown as it is written. -/
theorem keepsUntagged_untaggedPage :
    scan {} untaggedPage = .ok untaggedTokens ∧ (∀ token ∈ untaggedTokens, token.IsLiteral) ∧
      Engine.render ⟨{}, .standard⟩ untaggedPage .empty = .ok untaggedPage := by
  have hscan : scan {} untaggedPage = .ok untaggedTokens := by decide +kernel
  have hliteral : ∀ token ∈ untaggedTokens, token.IsLiteral := by
    rw [untaggedTokens]
    simp only [List.forall_mem_cons]
    exact ⟨trivial, ⟨rfl, rfl⟩, trivial, nofun⟩
  exact ⟨hscan, hliteral,
    (keepsUntagged {} untaggedPage).literal _ hscan hliteral .standard .empty⟩

end DocTemplate
