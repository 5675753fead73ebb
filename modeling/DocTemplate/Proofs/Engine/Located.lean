import DocTemplate.Engine
import DocTemplate.Proofs.Location
import DocTemplate.Proofs.Node.Failure
import DocTemplate.Proofs.Token.Scan

/-!
# Failures point at what they name

A document fails at a place of its source, and what the failure names stands just there: an opener
without a closer, a statement that does not fit, the tag that opened a block that is never closed,
or an interpolation with an unknown filter. Tags and their places travel apart through tokens, open
blocks and trees, but both come from the same token.
-/

namespace DocTemplate

open Text

/-- The tag is one of the source: `before` is what stands in front of it, and `rest` are the tokens
behind it. -/
def Tag.StandsBehind (t : Tag) (s : Settings) (source before : Text) (rest : List Token) : Prop :=
  ∃ front, scan s source = .ok (front ++ .tag t :: rest) ∧
    before = front.flatMap Token.source ++ t.lead

/-- A tag is written with its delimiters at least. -/
theorem Tag.Sound.raw_ne_nil {t : Tag} (h : t.Sound) : t.raw ≠ [] := by
  have hsays := h.inner
  cases hkind : t.kind with
  | statement k =>
    rw [hkind] at hsays
    obtain ⟨inner, hraw, -⟩ := hsays
    simp [hraw, Delimiter.opener]
  | interpolation =>
    rw [hkind] at hsays
    obtain ⟨inner, hraw, -⟩ := hsays
    simp [hraw, Delimiter.opener]

/-- What the cause of a failure is about stands in the source behind `before`. -/
def Cause.IsAbout (e : Engine) (source before : Text) : Cause → Prop
  | unterminated d excerpt =>
    ∃ behind, source = before ++ (d.opener ++ behind) ∧ excerpt <+: d.opener ++ behind ∧
      ¬ d.closer <:+: behind
  | misplaced raw problem =>
    (raw ≠ [] ∧ ∃ behind, source = before ++ (raw ++ behind)) ∧
      ∃ (t : Tag) (rest : List Token), t.raw = raw ∧
        t.StandsBehind e.settings source before rest ∧
        (problem = .unclosedLoop ∨ problem = .unclosedCondition → t.StaysOpen problem rest)
  | unknownFilter name raw _ =>
    (raw ≠ [] ∧ ∃ behind, source = before ++ (raw ++ behind)) ∧
      ∃ (t : Tag) (rest : List Token) (pipe : Pipe), t.raw = raw ∧
        t.StandsBehind e.settings source before rest ∧ t.kind = .interpolation ∧
        Pipe.ofText? t.content = some pipe ∧ name ∈ pipe.filters ∧ e.filters.find? name = none

namespace Engine

variable {e : Engine} {source : Text} {failure : Failure}

/-- A tag of a source is written where it stands. -/
theorem quoted_of_standsBehind {s : Settings} {t : Tag} {before : Text} {rest : List Token}
    (h : t.StandsBehind s source before rest) :
    t.raw ≠ [] ∧ ∃ behind, source = before ++ (t.raw ++ behind) := by
  obtain ⟨front, hscan, rfl⟩ := h
  have hsound : t.Sound := sound_of_scan hscan (.tag t) (by simp)
  refine ⟨hsound.raw_ne_nil, t.trail ++ rest.flatMap Token.source, ?_⟩
  rw [← source_of_scan hscan]
  simp [Token.source, Tag.source]

/-- An opener without a closer is found where it stands. -/
theorem isAbout_of_scan {u : Unterminated} (h : scan e.settings source = .error u) :
    u.failure.cause.IsAbout e source u.before := by
  have hcut : Cut.ofSource (!e.settings.conditionsInCode) source = .error u := by
    rw [scan] at h
    cases hcut : Cut.ofSource (!e.settings.conditionsInCode) source with
    | error u' =>
      rw [hcut] at h
      cases h
      rfl
    | ok cut =>
      rw [hcut] at h
      cases h
  obtain ⟨hsource, hnot⟩ := Cut.source_of_ofFlagged_eq_error hcut
  exact ⟨u.rest, hsource, (List.take_prefix _ _).trans (List.takeWhile_prefix _), hnot⟩

/-- A statement that does not fit and an opening tag that is never closed are found where they
stand. -/
theorem exists_isAbout_of_ofTokens {tokens : List Token}
    (hscan : scan e.settings source = .ok tokens) (h : Node.ofTokens tokens = .error failure) :
    ∃ before, failure.location.IsBehind before ∧ failure.cause.IsAbout e source before := by
  rw [Node.ofTokens] at h
  cases hrun : Builder.start.acceptAll .start tokens with
  | error failure' =>
    rw [hrun] at h
    cases h
    obtain ⟨front, token, rest, c, rfl, -, hrefuses⟩ :=
      Builder.acceptAll_eq_error_iff.mp hrun
    cases hrefuses with
    | @statement t k problem hkind hrefusal =>
      have hstands : t.StandsBehind e.settings source (front.flatMap Token.source ++ t.lead) rest :=
        ⟨front, hscan, rfl⟩
      have hclosed := Keyword.ne_unclosed_of_refusal? hrefusal
      exact ⟨_, Location.isBehind_after_after _ _, quoted_of_standsBehind hstands, t, rest, rfl,
        hstands, fun hunclosed => absurd hunclosed hclosed⟩
  | ok b =>
    rw [hrun] at h
    obtain ⟨front, t, rest, problem, rfl, hstays, rfl⟩ := exists_staysOpen_of_finish hrun h
    have hstands : t.StandsBehind e.settings source (front.flatMap Token.source ++ t.lead) rest :=
      ⟨front, hscan, rfl⟩
    exact ⟨_, Location.isBehind_after_after _ _, quoted_of_standsBehind hstands, t, rest, rfl,
      hstands, fun _ => hstays⟩

/-- An interpolation with an unknown filter is found where it stands. -/
theorem exists_isAbout_of_renderAll {tokens : List Token} {nodes : List Node} {scope : Scope}
    (hscan : scan e.settings source = .ok tokens) (hnodes : Node.ofTokens tokens = .ok nodes)
    (h : Node.renderAll e.filters scope nodes = .error failure) :
    ∃ before, failure.location.IsBehind before ∧ failure.cause.IsAbout e source before := by
  obtain ⟨front, t, rest, pipe, rfl, hkind, hpipe, name, hmem, hunknown, rfl⟩ :=
    exists_tag_of_renderAll hnodes h
  have hstands : t.StandsBehind e.settings source (front.flatMap Token.source ++ t.lead) rest :=
    ⟨front, hscan, rfl⟩
  exact ⟨_, Location.isBehind_after_after _ _, quoted_of_standsBehind hstands, t, rest, pipe, rfl,
    hstands, hkind, hpipe, hmem, hunknown⟩

/-- Every failure points at a place of the source, and what it names stands there. An opener without
a closer is quoted with what follows on its line, and no closer of its kind stands behind it; a
statement, the tag of a block that stays open and an interpolation with an unknown filter are quoted
as they are written. -/
theorem exists_isAbout_of_render {vars : Variables} (h : e.render source vars = .error failure) :
    ∃ before, failure.location.IsBehind before ∧ failure.cause.IsAbout e source before := by
  unfold render parseNodes at h
  cases hscan : scan e.settings source with
  | error u =>
    rw [hscan] at h
    cases h
    exact ⟨u.before, Location.isBehind_after u.before, isAbout_of_scan hscan⟩
  | ok tokens =>
    rw [hscan] at h
    dsimp only at h
    cases hnodes : Node.ofTokens tokens with
    | error failure' =>
      rw [hnodes] at h
      cases h
      exact exists_isAbout_of_ofTokens hscan hnodes
    | ok nodes =>
      rw [hnodes] at h
      exact exists_isAbout_of_renderAll hscan hnodes h

/-- A loop over `xs` with an unknown filter in it. -/
def unknownFilterInLoop : Text := "a\n{% for x in xs %}\n- {{ x | f }}\n{% endfor %}\n".toList

/-- A loop that is never closed, behind a blank. -/
def unclosedLoop : Text := "a\n {% for x in xs %}b".toList

/-- An opener without a closer. -/
def unclosedOpener : Text := "é \x7b\x7b x\n\x7d".toList

/-- The three failures point at the interpolation, at the opening tag and at the opener. -/
theorem exists_isAbout_of_render_quoted :
    (∃ before, Location.IsBehind ⟨3, 3⟩ before ∧
      Cause.IsAbout {} unknownFilterInLoop before
        (.unknownFilter "f".toList "{{ x | f }}".toList Filters.standard.names)) ∧
    (∃ before, Location.IsBehind ⟨2, 2⟩ before ∧
      Cause.IsAbout {} unclosedLoop before
        (.misplaced "{% for x in xs %}".toList .unclosedLoop)) ∧
    ∃ before, Location.IsBehind ⟨1, 3⟩ before ∧
      Cause.IsAbout {} unclosedOpener before
        (.unterminated .interpolation "\x7b\x7b x".toList) := by
  have hfilter : render {} unknownFilterInLoop ⟨[("xs".toList, .sequence [.null])]⟩ =
      .error ⟨⟨3, 3⟩, .unknownFilter "f".toList "{{ x | f }}".toList Filters.standard.names⟩ := by
    decide +kernel
  have hloop : render {} unclosedLoop .empty =
      .error ⟨⟨2, 2⟩, .misplaced "{% for x in xs %}".toList .unclosedLoop⟩ := by
    decide +kernel
  have hopener : render {} unclosedOpener .empty =
      .error ⟨⟨1, 3⟩, .unterminated .interpolation "\x7b\x7b x".toList⟩ := by
    decide +kernel
  exact ⟨exists_isAbout_of_render hfilter, exists_isAbout_of_render hloop,
    exists_isAbout_of_render hopener⟩

end Engine

end DocTemplate
