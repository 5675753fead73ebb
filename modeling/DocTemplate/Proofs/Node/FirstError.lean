import DocTemplate.Proofs.Node.Matching

/-!
# The first error

Tokens can go on to a document as long as every statement fits, since whatever is open may be closed
in the end. So tokens that are no document fail in one of two ways. Either there is a first tag with
which they cannot go on any more, and the failure names it and says by its form or by the innermost
open block why it does not fit. Or they can go on, and the failure names the last opening tag that
is not closed.
-/

namespace DocTemplate

open Builder

/-! ## Tokens that can go on -/

/-- The tokens can go on to a document. -/
def IsExtendable (tokens : List Token) : Prop := ∃ more, IsDocument (tokens ++ more)

/-- A first part can go on if the whole can. -/
theorem IsExtendable.of_append {front back : List Token} (h : IsExtendable (front ++ back)) :
    IsExtendable front := by
  obtain ⟨more, hdocument⟩ := h
  exact ⟨back ++ more, by rwa [← List.append_assoc]⟩

/-- A statement that says nothing but its keyword. -/
def Keyword.bareTag (k : Keyword) : Tag := ⟨.statement k, k.toText, [], k.toText, [], false, false⟩

/-- It says nothing but its keyword. -/
theorem Keyword.isBare_bareTag (k : Keyword) : k.bareTag.IsBare k := ⟨rfl, rfl⟩

/-- A block that has been entered may be closed behind a document. -/
theorem OpenBlock.EnteredBy.exists_isItem {opening : Tag} {block : OpenBlock}
    {entry inner : List Token} (h : block.EnteredBy opening entry) (hinner : IsDocument inner) :
    ∃ closing, IsItem (entry ++ (inner ++ [.tag closing])) := by
  cases h with
  | loop hopen =>
    exact ⟨Keyword.endLoop.bareTag, .loop hopen hinner (Keyword.isBare_bareTag _)⟩
  | consequent hopen =>
    exact ⟨Keyword.endCondition.bareTag, .condition hopen hinner (Keyword.isBare_bareTag _)⟩
  | alternative hopen hconsequent hseparate =>
    refine ⟨Keyword.endCondition.bareTag, ?_⟩
    have hitem : IsItem _ := .conditionAlternative hopen hconsequent hseparate hinner
      (Keyword.isBare_bareTag .endCondition)
    simpa using hitem

/-- Blocks that are open may be closed one by one, the innermost first. -/
theorem LeavesOpen.isExtendable {tokens : List Token} {frames : List Frame}
    (h : LeavesOpen tokens frames) : IsExtendable tokens := by
  induction frames generalizing tokens with
  | nil =>
    cases h with
    | document hdocument => exact ⟨[], by rwa [List.append_nil]⟩
  | cons frame frames ih =>
    cases h with
    | block hbefore hentry hinner _ _ =>
      obtain ⟨closing, hitem⟩ := hentry.exists_isItem hinner
      obtain ⟨more, hdocument⟩ := ih (hbefore.item hitem)
      exact ⟨.tag closing :: more, by simpa using hdocument⟩

/-- Tokens can go on exactly if a run over them comes through. -/
theorem isExtendable_iff {tokens : List Token} :
    IsExtendable tokens ↔ ∃ b, start.acceptAll .start tokens = .ok b := by
  constructor
  · rintro ⟨more, hdocument⟩
    obtain ⟨body, hrun⟩ := hdocument.exists_acceptAll start .start
    obtain ⟨b, hfront, -⟩ := acceptAll_append_eq_ok_iff.mp hrun
    exact ⟨b, hfront⟩
  · rintro ⟨b, hrun⟩
    exact (LeavesOpen.of_run hrun).isExtendable

/-! ## The innermost open block -/

/-- The statement by which the innermost block that the tokens leave open was entered last: behind
it stands a document. A document leaves no block open. -/
inductive InnermostBlock : List Token → Option Keyword → Prop
  /-- No block is open. -/
  | none {tokens : List Token} (h : IsDocument tokens) : InnermostBlock tokens none
  /-- A block is entered, and a document stands inside so far. -/
  | some {before entry inner : List Token} {opening : Tag} {block : OpenBlock}
      (hentry : block.EnteredBy opening entry) (hinner : IsDocument inner) :
      InnermostBlock (before ++ (entry ++ inner)) (some block.keyword)

/-- A block is entered on top of whatever is open. -/
theorem OpenBlock.EnteredBy.exists_acceptAll {opening : Tag} {block : OpenBlock}
    {entry : List Token} (h : block.EnteredBy opening entry) (b : Builder) (location : Location) :
    ∃ b', b.acceptAll location entry = .ok b' ∧ b'.innermost? = some block.keyword := by
  cases h with
  | loop hopen =>
    obtain ⟨hkind, head, hhead⟩ := hopen
    have hread := LoopHead.ofText?_eq_some_iff_words.mpr hhead
    rw [acceptAll_cons_of_obeys hkind (.openLoop hread)]
    exact ⟨_, rfl, rfl⟩
  | consequent hopen =>
    obtain ⟨hkind, condition, hwords⟩ := hopen
    have hread := conditionOfText?_eq_some_iff_words.mpr hwords
    rw [acceptAll_cons_of_obeys hkind (.openCondition hread)]
    exact ⟨_, rfl, rfl⟩
  | alternative hopen hconsequent hseparate =>
    obtain ⟨hkind, condition, hwords⟩ := hopen
    have hread := conditionOfText?_eq_some_iff_words.mpr hwords
    obtain ⟨body, hrun⟩ := hconsequent.exists_acceptAll _ _
    rw [acceptAll_cons_of_obeys hkind (.openCondition hread), acceptAll_append, hrun]
    dsimp only [openBlock]
    rw [acceptAll_cons_of_obeys hseparate.1 (.alternative hseparate.2)]
    exact ⟨_, rfl, rfl⟩

/-- The innermost open block is that of a run over the tokens. -/
theorem innermostBlock_iff {tokens : List Token} {b : Builder}
    (hrun : start.acceptAll .start tokens = .ok b) {k? : Option Keyword} :
    InnermostBlock tokens k? ↔ b.innermost? = k? := by
  constructor
  · intro h
    cases h with
    | none hdocument =>
      obtain ⟨body, hrun'⟩ := hdocument.exists_acceptAll start .start
      obtain rfl := Except.ok.inj (hrun.symm.trans hrun')
      rfl
    | some hentry hinner =>
      obtain ⟨c, -, hbehind⟩ := acceptAll_append_eq_ok_iff.mp hrun
      obtain ⟨c', hentered, hinside⟩ := acceptAll_append_eq_ok_iff.mp hbehind
      obtain ⟨b', hentered', hblock⟩ := hentry.exists_acceptAll c _
      obtain rfl := Except.ok.inj (hentered.symm.trans hentered')
      obtain ⟨body, hinside'⟩ := hinner.exists_acceptAll c' _
      obtain rfl := Except.ok.inj (hinside.symm.trans hinside')
      exact hblock
  · rintro rfl
    have hopen := LeavesOpen.of_run hrun
    obtain ⟨body, frames⟩ := b
    cases hopen with
    | document hdocument => exact .none hdocument
    | block _ hentry hinner _ _ => exact .some hentry hinner

/-! ## Statements that do not fit -/

/-- The statement has the form that its keyword asks for. -/
def Tag.IsWellFormed (tag : Tag) : Prop :=
  tag.Opens ∨ tag.IsBare .alternative ∨ tag.IsBare .endLoop ∨ tag.IsBare .endCondition

/-- Why a statement does not fit behind tokens: because of its form, and if it is well formed,
because of the innermost open block. -/
inductive Tag.Misfits (tag : Tag) (front : List Token) : Problem → Prop
  /-- It does not have the form that its keyword asks for. -/
  | malformed {k : Keyword} (hkind : tag.kind = .statement k) (h : ¬ tag.IsWellFormed) :
      Misfits tag front (.malformed k)
  /-- It closes a loop where the innermost open block is none. -/
  | endLoop {k? : Option Keyword} (h : tag.IsBare .endLoop) (hblock : InnermostBlock front k?)
      (hne : k? ≠ some .loop) : Misfits tag front .unmatchedEndLoop
  /-- It closes a condition where the innermost open block is none. -/
  | endCondition {k? : Option Keyword} (h : tag.IsBare .endCondition)
      (hblock : InnermostBlock front k?) (hne : k? ≠ some .condition)
      (hne' : k? ≠ some .alternative) : Misfits tag front .unmatchedEndCondition
  /-- It starts an alternative where the innermost open block is no condition. -/
  | alternative {k? : Option Keyword} (h : tag.IsBare .alternative)
      (hblock : InnermostBlock front k?) (hne : k? ≠ some .condition)
      (hne' : k? ≠ some .alternative) : Misfits tag front .unmatchedAlternative
  /-- It starts an alternative of a condition that has one. -/
  | duplicate (h : tag.IsBare .alternative) (hblock : InnermostBlock front (some .alternative)) :
      Misfits tag front .duplicateAlternative

/-- A statement is well formed exactly if it is not refused as malformed. -/
theorem Tag.isWellFormed_iff {tag : Tag} {k : Keyword} (hkind : tag.kind = .statement k)
    (k? : Option Keyword) :
    tag.IsWellFormed ↔ k.refusal? tag.content k? ≠ some (.malformed k) := by
  unfold IsWellFormed Opens OpensLoop OpensCondition IsBare Keyword.refusal?
  cases k with
  | loop => simp [hkind, ← LoopHead.ofText?_eq_some_iff_words, Option.ne_none_iff_exists']
  | condition => simp [hkind, ← conditionOfText?_eq_some_iff_words, Option.ne_none_iff_exists']
  | alternative | endLoop | endCondition =>
    dsimp only
    split
    · rename_i hcontent
      simp [hkind, hcontent]
    · rename_i hcontent
      split <;> simp [hkind, not_not.mp hcontent]

section Misfits

variable {front : List Token} {b : Builder} (hrun : start.acceptAll .start front = .ok b)
  {tag : Tag} {k : Keyword} (hkind : tag.kind = .statement k) {problem : Problem}

include hrun hkind

/-- A statement that does not fit is refused for this reason behind a run over the tokens. -/
theorem Tag.Misfits.refusal?_eq (h : tag.Misfits front problem) :
    k.refusal? tag.content b.innermost? = some problem := by
  cases h with
  | malformed hkind' hform =>
    obtain rfl := TagKind.statement.inj (hkind.symm.trans hkind')
    rw [Tag.isWellFormed_iff hkind b.innermost?] at hform
    exact not_not.mp hform
  | endLoop hbare hblock hne =>
    obtain rfl := TagKind.statement.inj (hkind.symm.trans hbare.1)
    obtain rfl := (innermostBlock_iff hrun).mp hblock
    simp [Keyword.refusal?, hbare.2, hne]
  | endCondition hbare hblock hne hne' =>
    obtain rfl := TagKind.statement.inj (hkind.symm.trans hbare.1)
    obtain rfl := (innermostBlock_iff hrun).mp hblock
    simp [Keyword.refusal?, hbare.2, hne, hne']
  | alternative hbare hblock hne hne' =>
    obtain rfl := TagKind.statement.inj (hkind.symm.trans hbare.1)
    obtain rfl := (innermostBlock_iff hrun).mp hblock
    simp [Keyword.refusal?, hbare.2]
  | duplicate hbare hblock =>
    obtain rfl := TagKind.statement.inj (hkind.symm.trans hbare.1)
    have hinnermost := (innermostBlock_iff hrun).mp hblock
    simp [Keyword.refusal?, hbare.2, hinnermost]

/-- A well-formed statement that is refused does not fit the innermost open block. -/
theorem Tag.IsWellFormed.misfits (hform : tag.IsWellFormed)
    (h : k.refusal? tag.content b.innermost? = some problem) : tag.Misfits front problem := by
  have hblock : InnermostBlock front b.innermost? := (innermostBlock_iff hrun).mpr rfl
  rcases hform with (⟨hkind', head, hhead⟩ | ⟨hkind', condition, hwords⟩) | hbare | hbare | hbare
  · obtain rfl := TagKind.statement.inj (hkind.symm.trans hkind')
    simp [Keyword.refusal?, LoopHead.ofText?_eq_some_iff_words.mpr hhead] at h
  · obtain rfl := TagKind.statement.inj (hkind.symm.trans hkind')
    simp [Keyword.refusal?, conditionOfText?_eq_some_iff_words.mpr hwords] at h
  · obtain rfl := TagKind.statement.inj (hkind.symm.trans hbare.1)
    simp only [Keyword.refusal?, hbare.2, ne_eq, not_true_eq_false, if_false] at h
    split at h
    · cases h
    · rename_i hinnermost
      cases h
      exact .duplicate hbare (hinnermost ▸ hblock)
    · rename_i hne hne'
      cases h
      exact .alternative hbare hblock hne hne'
  · obtain rfl := TagKind.statement.inj (hkind.symm.trans hbare.1)
    simp only [Keyword.refusal?, hbare.2, ne_eq, not_true_eq_false, if_false] at h
    split at h
    · cases h
    · rename_i hne
      cases h
      exact .endLoop hbare hblock hne
  · obtain rfl := TagKind.statement.inj (hkind.symm.trans hbare.1)
    simp only [Keyword.refusal?, hbare.2, ne_eq, not_true_eq_false, if_false] at h
    split at h
    · cases h
    · rename_i hne
      cases h
      exact .endCondition hbare hblock (mt Or.inl hne) (mt Or.inr hne)

/-- A statement does not fit for the reason for which it is refused behind a run over the tokens. -/
theorem Tag.misfits_iff :
    tag.Misfits front problem ↔ k.refusal? tag.content b.innermost? = some problem := by
  constructor
  · intro h
    exact h.refusal?_eq hrun hkind
  · intro h
    by_cases hform : tag.IsWellFormed
    · exact hform.misfits hrun hkind h
    · have hmalformed := not_not.mp (mt (Tag.isWellFormed_iff hkind b.innermost?).mpr hform)
      obtain rfl := Option.some.inj (h.symm.trans hmalformed)
      exact .malformed hkind hform

end Misfits

/-- Only a statement can fail to fit. -/
theorem Tag.Misfits.exists_kind_eq {tag : Tag} {front : List Token} {problem : Problem}
    (h : tag.Misfits front problem) : ∃ k, tag.kind = .statement k := by
  cases h with
  | malformed hkind _ => exact ⟨_, hkind⟩
  | endLoop hbare _ _ => exact ⟨_, hbare.1⟩
  | endCondition hbare _ _ _ => exact ⟨_, hbare.1⟩
  | alternative hbare _ _ _ => exact ⟨_, hbare.1⟩
  | duplicate hbare _ => exact ⟨_, hbare.1⟩

/-- Behind a run over the tokens just a tag that does not fit is refused. -/
theorem refuses_iff_misfits {front : List Token} {b : Builder}
    (hrun : start.acceptAll .start front = .ok b) {token : Token} {failure : Failure} :
    b.Refuses (Location.start.after (front.flatMap Token.source)) token failure ↔
      ∃ tag problem, token = .tag tag ∧ tag.Misfits front problem ∧
        failure = ⟨(Location.start.after (front.flatMap Token.source)).after tag.lead,
          .misplaced tag.raw problem⟩ := by
  constructor
  · intro h
    cases h with
    | statement hkind hrefusal =>
      exact ⟨_, _, rfl, (Tag.misfits_iff hrun hkind).mpr hrefusal, rfl⟩
  · rintro ⟨tag, problem, rfl, hmisfits, rfl⟩
    obtain ⟨k, hkind⟩ := hmisfits.exists_kind_eq
    exact .statement hkind ((Tag.misfits_iff hrun hkind).mp hmisfits)

/-! ## The failure of tokens -/

/-- The first part of the tokens is the shortest one that cannot go on to a document. -/
structure IsShortestDeadEnd (tokens part : List Token) : Prop where
  /-- It is a first part. -/
  isPrefix : part <+: tokens
  /-- It cannot go on. -/
  not_isExtendable : ¬ IsExtendable part
  /-- No other one that cannot go on is shorter. -/
  shortest : ∀ other, other <+: tokens → ¬ IsExtendable other → part.length ≤ other.length

/-- Without its last token the shortest part that cannot go on can. -/
theorem IsShortestDeadEnd.isExtendable {tokens front : List Token} {token : Token}
    (h : IsShortestDeadEnd tokens (front ++ [token])) : IsExtendable front := by
  by_contra hfront
  have hprefix : front <+: tokens := (List.prefix_append front [token]).trans h.isPrefix
  have hlength := h.shortest front hprefix hfront
  rw [List.length_append, List.length_singleton] at hlength
  omega

/-- Tokens that can go on, and with one more cannot, are the shortest that cannot. -/
theorem isShortestDeadEnd_of_isExtendable {front back : List Token} {token : Token}
    (hfront : IsExtendable front) (hdead : ¬ IsExtendable (front ++ [token])) :
    IsShortestDeadEnd (front ++ token :: back) (front ++ [token]) := by
  refine ⟨⟨back, by simp⟩, hdead, ?_⟩
  intro other hother hdead'
  by_contra hlength
  rw [List.length_append, List.length_singleton] at hlength
  -- A shorter one is a first part of those that can go on.
  obtain ⟨rest, rfl⟩ : other <+: front :=
    List.prefix_of_prefix_length_le hother (List.prefix_append front _) (by omega)
  exact hdead' hfront.of_append

/-- The failure of tokens that are no document. -/
inductive FirstError (tokens : List Token) : Failure → Prop
  /-- The tokens cannot go on with a tag: it is the last one of the shortest first part that cannot,
  and it does not fit behind the others of this part. -/
  | misfit {front : List Token} {tag : Tag} {problem : Problem} {location : Location}
      (hend : IsShortestDeadEnd tokens (front ++ [.tag tag])) (h : tag.Misfits front problem)
      (hplace : location.IsBehind (front.flatMap Token.source ++ tag.lead)) :
      FirstError tokens ⟨location, .misplaced tag.raw problem⟩
  /-- All first parts of the tokens can go on: the last opening tag that no later one closes stays
  open. -/
  | unclosed {front behind : List Token} {opening : Tag} {problem : Problem} {location : Location}
      (hall : ∀ part, part <+: tokens → IsExtendable part)
      (htokens : tokens = front ++ .tag opening :: behind)
      (hopen : opening.StaysOpen problem behind) (hunclosed : ¬ opening.IsClosedIn behind)
      (hlast : ClosesAll behind)
      (hplace : location.IsBehind (front.flatMap Token.source ++ opening.lead)) :
      FirstError tokens ⟨location, .misplaced opening.raw problem⟩

/-- An opening tag that is not closed does not stand behind one whose followers close all they
open. -/
theorem length_le_of_closesAll {front front' behind behind' : List Token} {opening opening' : Tag}
    (htokens : front ++ .tag opening :: behind = front' ++ .tag opening' :: behind')
    (hlast : ClosesAll behind) (hopens : opening'.Opens)
    (hunclosed : ¬ opening'.IsClosedIn behind') :
    front'.length ≤ front.length := by
  rcases List.append_eq_append_iff.mp htokens with ⟨between, hfront, hbehind⟩ | ⟨between, hfront, -⟩
  · cases between with
    | nil => rw [hfront, List.append_nil]
    | cons first between =>
      obtain ⟨-, hbehind⟩ := List.cons.inj hbehind
      exact absurd (hlast between opening' behind' hbehind hopens) hunclosed
  · rw [hfront, List.length_append]
    omega

/-- A block that stays open has one problem. -/
theorem Tag.StaysOpen.problem_eq {opening : Tag} {problem problem' : Problem}
    {behind behind' : List Token} (h : opening.StaysOpen problem behind)
    (h' : opening.StaysOpen problem' behind') : problem = problem' := by
  have hkind : ∀ {p : Problem} {tokens : List Token}, opening.StaysOpen p tokens →
      p = if opening.kind = .statement .loop then .unclosedLoop else .unclosedCondition := by
    intro p tokens hopen
    cases hopen with
    | loop hopen _ => simp [hopen.1]
    | condition hopen _ => simp [hopen.1]
    | alternative hopen _ _ _ => simp [hopen.1]
  rw [hkind h, hkind h']

/-- A run fails with the first tag with which the tokens cannot go on. -/
theorem FirstError.of_run {tokens : List Token} {failure : Failure}
    (h : start.acceptAll .start tokens = .error failure) : FirstError tokens failure := by
  obtain ⟨front, token, back, b, rfl, hfront, hrefuses⟩ := acceptAll_eq_error_iff.mp h
  have hdead : ¬ IsExtendable (front ++ [token]) := by
    intro hextendable
    obtain ⟨b', hrun⟩ := isExtendable_iff.mp hextendable
    have hfails := acceptAll_eq_error_iff.mpr ⟨front, token, [], b, rfl, hfront, hrefuses⟩
    cases hrun.symm.trans hfails
  have hend : IsShortestDeadEnd (front ++ token :: back) (front ++ [token]) :=
    isShortestDeadEnd_of_isExtendable (isExtendable_iff.mpr ⟨b, hfront⟩) hdead
  obtain ⟨tag, problem, rfl, hmisfits, rfl⟩ := (refuses_iff_misfits hfront).mp hrefuses
  exact .misfit hend hmisfits (Location.isBehind_after_after _ _)

/-- A run that comes through fails in the end with the last opening tag that is not closed. -/
theorem FirstError.of_finish {tokens : List Token} {b : Builder} {failure : Failure}
    (hrun : start.acceptAll .start tokens = .ok b) (h : b.finish = .error failure) :
    FirstError tokens failure := by
  obtain ⟨front, opening, behind, problem, rfl, hopen, rfl⟩ := exists_staysOpen_of_finish hrun h
  refine .unclosed ?_ rfl hopen hopen.not_isClosedIn hopen.closesAll
    (Location.isBehind_after_after _ _)
  rintro part ⟨rest, hpart⟩
  have hwhole := isExtendable_iff.mpr ⟨b, hrun⟩
  rw [← hpart] at hwhole
  exact hwhole.of_append

/-- Tokens fail exactly with their first error. -/
theorem ofTokens_eq_error_iff_firstError {tokens : List Token} {failure : Failure} :
    Node.ofTokens tokens = .error failure ↔ FirstError tokens failure := by
  rw [ofTokens_eq_error_iff]
  constructor
  · rintro (hrun | ⟨b, hrun, hfinish⟩)
    · exact .of_run hrun
    · exact .of_finish hrun hfinish
  · intro h
    cases h with
    | @misfit front tag problem location hend hmisfits hplace =>
      obtain rfl := Location.isBehind_iff.mp hplace
      rw [Location.after_append]
      obtain ⟨b, hfront⟩ := isExtendable_iff.mp hend.isExtendable
      obtain ⟨back, rfl⟩ := hend.isPrefix
      have hrefuses := (refuses_iff_misfits hfront).mpr ⟨tag, problem, rfl, hmisfits, rfl⟩
      exact Or.inl (acceptAll_eq_error_iff.mpr
        ⟨front, .tag tag, back, b, by simp, hfront, hrefuses⟩)
    | @unclosed front behind opening problem location hall htokens hopen hunclosed hlast hplace =>
      obtain rfl := Location.isBehind_iff.mp hplace
      rw [Location.after_append]
      obtain ⟨b, hrun⟩ := isExtendable_iff.mp (hall tokens List.prefix_rfl)
      cases hfinish : b.finish with
      | ok nodes =>
        have hdocument := exists_ofTokens_eq_ok_iff.mp
          ⟨nodes, ofTokens_eq_ok_iff.mpr ⟨b, hrun, hfinish⟩⟩
        exact absurd (hdocument.closesAll front opening behind htokens hopen.opens) hunclosed
      | error failure =>
        obtain ⟨front', opening', behind', problem', htokens', hopen', rfl⟩ :=
          exists_staysOpen_of_finish hrun hfinish
        -- None of the two tags can stand behind the other.
        have htags := htokens.symm.trans htokens'
        have hle := length_le_of_closesAll htags hlast hopen'.opens hopen'.not_isClosedIn
        have hge := length_le_of_closesAll htags.symm hopen'.closesAll hopen.opens hunclosed
        obtain ⟨rfl, hbehind⟩ := List.append_inj htags (Nat.le_antisymm hge hle)
        obtain ⟨htag, rfl⟩ := List.cons.inj hbehind
        obtain rfl := Token.tag.inj htag
        obtain rfl := hopen.problem_eq hopen'
        exact Or.inr ⟨b, hrun, hfinish⟩

/-- The start of an alternative, behind a blank. -/
def spacedAlternative : Tag :=
  ⟨.statement .alternative, "else".toList, [' '], "{% else %}".toList, ['\n'], true, false⟩

/-- A condition with its alternative, at the end of a line. -/
def alternativeTokens : List Token :=
  [.text "a\n".toList,
    .tag ⟨.statement .condition, "if x".toList, [], "{% if x %}".toList, [], false, false⟩,
    .tag ⟨.statement .alternative, "else".toList, [], "{% else %}".toList, [], false, false⟩,
    .text "b\n".toList]

/-- The opening of a loop over `xs`. -/
def loopOverXs : Tag :=
  ⟨.statement .loop, "for x in xs".toList, [], "{% for x in xs %}".toList, [], false, false⟩

/-- A condition that is never closed, with a loop in it that is. -/
def openConditionTokens : List Token :=
  [.tag ⟨.statement .condition, "if x".toList, [], "{% if x %}".toList, ['\n'], true, false⟩,
    .tag loopOverXs,
    .tag ⟨.statement .endLoop, "endfor".toList, [], "{% endfor %}".toList, [], false, false⟩]

/-- A second alternative is named whatever is behind it, and of two blocks that stay open the
innermost one is named. -/
theorem ofTokens_eq_error_iff_firstError_twoCases :
    (∀ behind, Node.ofTokens (alternativeTokens ++ .tag spacedAlternative :: behind) =
      .error ⟨⟨3, 2⟩, .misplaced "{% else %}".toList .duplicateAlternative⟩) ∧
    Node.ofTokens (openConditionTokens ++ [.tag loopOverXs, .text ['c']]) =
      .error ⟨⟨2, 30⟩, .misplaced "{% for x in xs %}".toList .unclosedLoop⟩ := by
  constructor
  · intro behind
    have hcan : IsExtendable alternativeTokens := isExtendable_iff.mpr ⟨_, rfl⟩
    have hcannot : ¬ IsExtendable (alternativeTokens ++ [.tag spacedAlternative]) := by
      rw [isExtendable_iff]
      rintro ⟨b, ⟨⟩⟩
    have hcondition : Tag.OpensCondition
        ⟨.statement .condition, "if x".toList, [], "{% if x %}".toList, [], false, false⟩ :=
      ⟨rfl, Path.ofName ['x'] rfl, by decide⟩
    have hblock : InnermostBlock alternativeTokens (some .alternative) :=
      @InnermostBlock.some [.text "a\n".toList] _ _ _ (.alternative (Path.ofName ['x'] rfl) [])
        (.alternative hcondition .nil ⟨rfl, rfl⟩) (.cons (.text "b\n".toList) .nil)
    exact ofTokens_eq_error_iff_firstError.mpr
      (.misfit (isShortestDeadEnd_of_isExtendable hcan hcannot) (.duplicate ⟨rfl, rfl⟩ hblock)
        ⟨rfl, rfl⟩)
  · have hcan : IsExtendable (openConditionTokens ++ [.tag loopOverXs, .text ['c']]) :=
      isExtendable_iff.mpr ⟨_, rfl⟩
    have hloop : loopOverXs.OpensLoop :=
      ⟨rfl, ⟨['x'], Path.ofName ['x', 's'] rfl⟩, by decide, by decide⟩
    have hopen : loopOverXs.StaysOpen .unclosedLoop [.text ['c']] :=
      .loop hloop (.cons (.text ['c']) .nil)
    refine ofTokens_eq_error_iff_firstError.mpr
      (.unclosed ?_ rfl hopen hopen.not_isClosedIn hopen.closesAll ⟨rfl, rfl⟩)
    rintro part ⟨rest, hpart⟩
    exact IsExtendable.of_append (hpart ▸ hcan)

end DocTemplate
