import DocTemplate.Node.Build
import DocTemplate.Proofs.Expression

/-!
# The steps of tree building

Six kinds of steps are all that a statement can do to the open blocks, each of them only if the
statement has the form that its keyword asks for. Any other statement is refused, and what is wrong
with it is told by its content and by the innermost open block. A run over tokens goes through its
parts one behind the other.
-/

namespace DocTemplate

namespace Builder

/-- What a statement that fits does to the open blocks. -/
inductive Obeys (tag : Tag) (location : Location) : Keyword → Builder → Builder → Prop
  /-- A loop is opened. -/
  | openLoop {b : Builder} {head : LoopHead} (h : LoopHead.ofText? tag.content = some head) :
      Obeys tag location .loop b
        (b.openBlock (.loop head (if tag.isolated then .block else .inline)) tag.raw location)
  /-- A condition is opened. -/
  | openCondition {b : Builder} {condition : Path}
      (h : conditionOfText? tag.content = some condition) :
      Obeys tag location .condition b (b.openBlock (.consequent condition) tag.raw location)
  /-- The alternative of a condition starts. -/
  | alternative {body outer : List Node} {condition : Path} {opening : Text} {place : Location}
      {rest : List Frame} (h : tag.content = Keyword.alternative.toText) :
      Obeys tag location .alternative
        ⟨body, ⟨.consequent condition, opening, place, outer⟩ :: rest⟩
        ⟨[], ⟨.alternative condition body.reverse, opening, place, outer⟩ :: rest⟩
  /-- A loop is closed. -/
  | closeLoop {body outer : List Node} {head : LoopHead} {layout : LoopLayout} {opening : Text}
      {place : Location} {rest : List Frame} (h : tag.content = Keyword.endLoop.toText) :
      Obeys tag location .endLoop ⟨body, ⟨.loop head layout, opening, place, outer⟩ :: rest⟩
        ⟨.loop head layout body.reverse :: outer, rest⟩
  /-- A condition is closed in front of its alternative. -/
  | closeConsequent {body outer : List Node} {condition : Path} {opening : Text}
      {place : Location} {rest : List Frame} (h : tag.content = Keyword.endCondition.toText) :
      Obeys tag location .endCondition
        ⟨body, ⟨.consequent condition, opening, place, outer⟩ :: rest⟩
        ⟨.conditional condition body.reverse [] :: outer, rest⟩
  /-- A condition is closed in its alternative. -/
  | closeAlternative {body outer consequent : List Node} {condition : Path} {opening : Text}
      {place : Location} {rest : List Frame} (h : tag.content = Keyword.endCondition.toText) :
      Obeys tag location .endCondition
        ⟨body, ⟨.alternative condition consequent, opening, place, outer⟩ :: rest⟩
        ⟨.conditional condition consequent body.reverse :: outer, rest⟩

/-- A statement is obeyed exactly by these steps. -/
theorem obey_eq_ok_iff {b b' : Builder} {k : Keyword} {tag : Tag} {location : Location} :
    b.obey k tag location = .ok b' ↔ Obeys tag location k b b' := by
  constructor
  · intro h
    obtain ⟨body, frames⟩ := b
    cases k with
    | loop =>
      rw [obey] at h
      split at h
      · rename_i head hhead
        cases h
        exact .openLoop hhead
      · cases h
    | condition =>
      rw [obey] at h
      split at h
      · rename_i condition hcondition
        cases h
        exact .openCondition hcondition
      · cases h
    | alternative =>
      rw [obey] at h
      split at h
      · cases h
      · rename_i hcontent
        dsimp only at h
        split at h
        · cases h
          exact .alternative (Decidable.not_not.mp hcontent)
        · cases h
        · cases h
    | endLoop =>
      rw [obey] at h
      split at h
      · cases h
      · rename_i hcontent
        dsimp only at h
        split at h
        · cases h
          exact .closeLoop (Decidable.not_not.mp hcontent)
        · cases h
    | endCondition =>
      rw [obey] at h
      split at h
      · cases h
      · rename_i hcontent
        dsimp only at h
        split at h
        · cases h
          exact .closeConsequent (Decidable.not_not.mp hcontent)
        · cases h
          exact .closeAlternative (Decidable.not_not.mp hcontent)
        · cases h
  · intro h
    cases h with
    | openLoop h => simp [obey, h]
    | openCondition h => simp [obey, h]
    | alternative h => simp [obey, h]
    | closeLoop h => simp [obey, h]
    | closeConsequent h => simp [obey, h]
    | closeAlternative h => simp [obey, h]

/-- A statement that is obeyed holds expression characters only. -/
theorem Obeys.isExpressionChar {b b' : Builder} {k : Keyword} {tag : Tag} {location : Location}
    (h : Obeys tag location k b b') : ∀ c ∈ tag.content, isExpressionChar c = true := by
  cases h with
  | openLoop h => exact LoopHead.isExpressionChar_of_ofText? h
  | openCondition h => exact isExpressionChar_of_conditionOfText? h
  | alternative h => exact h ▸ List.all_eq_true.mp rfl
  | closeLoop h => exact h ▸ List.all_eq_true.mp rfl
  | closeConsequent h => exact h ▸ List.all_eq_true.mp rfl
  | closeAlternative h => exact h ▸ List.all_eq_true.mp rfl

/-! ## What is refused -/

end Builder

/-- The statement that an open block was entered by. -/
def OpenBlock.keyword : OpenBlock → Keyword
  | loop _ _ => .loop
  | consequent _ => .condition
  | alternative _ _ => .alternative

/-- Why a statement with the given content is refused in an open block that was entered by
`innermost?`, or outside of all blocks. -/
def Keyword.refusal? (content : Text) (innermost? : Option Keyword) (k : Keyword) :
    Option Problem :=
  match k with
  | .loop => if (LoopHead.ofText? content).isNone then some (.malformed k) else none
  | .condition => if (conditionOfText? content).isNone then some (.malformed k) else none
  | .alternative =>
    if content ≠ k.toText then some (.malformed k)
    else match innermost? with
      | some .condition => none
      | some .alternative => some .duplicateAlternative
      | _ => some .unmatchedAlternative
  | .endLoop =>
    if content ≠ k.toText then some (.malformed k)
    else if innermost? = some .loop then none else some .unmatchedEndLoop
  | .endCondition =>
    if content ≠ k.toText then some (.malformed k)
    else if innermost? = some .condition ∨ innermost? = some .alternative then none
    else some .unmatchedEndCondition

/-- That a block is never closed is no reason to refuse a statement. -/
theorem Keyword.ne_unclosed_of_refusal? {content : Text} {innermost? : Option Keyword}
    {k : Keyword} {problem : Problem} (h : k.refusal? content innermost? = some problem) :
    ¬ (problem = .unclosedLoop ∨ problem = .unclosedCondition) := by
  unfold refusal? at h
  cases k with
  | loop | condition =>
    dsimp only at h
    split at h <;> cases h
    simp
  | alternative | endLoop | endCondition =>
    dsimp only at h
    split at h
    · cases h
      simp
    · split at h <;> cases h <;> simp

namespace Builder

/-- The statement that the innermost open block was entered by. -/
def innermost? (b : Builder) : Option Keyword := b.frames.head?.map fun frame => frame.block.keyword

/-- A statement is refused because of its content or because of the innermost open block. -/
theorem obey_eq_error_iff {b : Builder} {k : Keyword} {tag : Tag} {location : Location}
    {problem : Problem} :
    b.obey k tag location = .error problem ↔
      k.refusal? tag.content b.innermost? = some problem := by
  obtain ⟨body, frames⟩ := b
  unfold obey Keyword.refusal?
  cases k with
  | loop => cases LoopHead.ofText? tag.content <;> simp
  | condition => cases conditionOfText? tag.content <;> simp
  | alternative =>
    dsimp only
    split
    · simp
    · rcases frames with _ | ⟨⟨block, opening, place, outer⟩, rest⟩
      · simp [innermost?]
      · cases block <;> simp [innermost?, OpenBlock.keyword]
  | endLoop =>
    dsimp only
    split
    · simp
    · rcases frames with _ | ⟨⟨block, opening, place, outer⟩, rest⟩
      · simp [innermost?]
      · cases block <;> simp [innermost?, OpenBlock.keyword]
  | endCondition =>
    dsimp only
    split
    · simp
    · rcases frames with _ | ⟨⟨block, opening, place, outer⟩, rest⟩
      · simp [innermost?]
      · cases block <;> simp [innermost?, OpenBlock.keyword]

/-! ## Runs over tokens -/

/-- A run over two lists of tokens is a run over the first and then one over the second. -/
theorem acceptAll_append (b : Builder) (location : Location) (tokens tokens' : List Token) :
    b.acceptAll location (tokens ++ tokens') =
      match b.acceptAll location tokens with
      | .ok b' => b'.acceptAll (location.after (tokens.flatMap Token.source)) tokens'
      | .error failure => .error failure := by
  induction tokens generalizing b location with
  | nil => rfl
  | cons token tokens ih =>
    rw [List.cons_append, acceptAll, acceptAll]
    cases b.accept location token with
    | error failure => rfl
    | ok b' => simp [ih]

/-- A statement is accepted exactly if it is obeyed at the place of its tag. -/
theorem accept_statement_eq_ok_iff {b b' : Builder} {location : Location} {tag : Tag} {k : Keyword}
    (hkind : tag.kind = .statement k) :
    b.accept location (.tag tag) = .ok b' ↔ Obeys tag (location.after tag.lead) k b b' := by
  rw [← obey_eq_ok_iff]
  simp only [accept, hkind]
  cases b.obey k tag (location.after tag.lead) <;> simp

/-- What it means that a token is refused: it is a statement that does not fit, and the failure
names it and its place. -/
inductive Refuses (b : Builder) (location : Location) : Token → Failure → Prop
  /-- A statement is refused. -/
  | statement {tag : Tag} {k : Keyword} {problem : Problem} (hkind : tag.kind = .statement k)
      (h : k.refusal? tag.content b.innermost? = some problem) :
      Refuses b location (.tag tag) ⟨location.after tag.lead, .misplaced tag.raw problem⟩

/-- Only a statement that does not fit is refused. -/
theorem accept_eq_error_iff {b : Builder} {location : Location} {token : Token}
    {failure : Failure} :
    b.accept location token = .error failure ↔ b.Refuses location token failure := by
  constructor
  · intro h
    cases token with
    | text t => cases h
    | escaped literal => cases h
    | tag tag =>
      cases hkind : tag.kind with
      | interpolation =>
        simp only [accept, hkind] at h
        cases h
      | statement k =>
        simp only [accept, hkind] at h
        cases hobey : b.obey k tag (location.after tag.lead) with
        | ok b' =>
          rw [hobey] at h
          cases h
        | error problem =>
          rw [hobey] at h
          cases h
          exact .statement hkind (obey_eq_error_iff.mp hobey)
  · rintro ⟨hkind, hrefusal⟩
    simp only [accept, hkind, obey_eq_error_iff.mpr hrefusal]

/-- A run comes through exactly if its first step and the rest of it do. -/
theorem acceptAll_cons_eq_ok_iff {b b' : Builder} {location : Location} {token : Token}
    {rest : List Token} :
    b.acceptAll location (token :: rest) = .ok b' ↔
      ∃ b₁, b.accept location token = .ok b₁ ∧
        b₁.acceptAll (location.after token.source) rest = .ok b' := by
  rw [acceptAll]
  cases b.accept location token with
  | error failure => simp
  | ok b₁ => simp

/-- A run over two lists of tokens comes through exactly if it comes through both of them. -/
theorem acceptAll_append_eq_ok_iff {b b' : Builder} {location : Location}
    {tokens tokens' : List Token} :
    b.acceptAll location (tokens ++ tokens') = .ok b' ↔
      ∃ c, b.acceptAll location tokens = .ok c ∧
        c.acceptAll (location.after (tokens.flatMap Token.source)) tokens' = .ok b' := by
  rw [acceptAll_append]
  cases b.acceptAll location tokens with
  | error failure => simp
  | ok c => simp

/-- A run fails exactly if it comes through up to a token that is refused. -/
theorem acceptAll_eq_error_iff {b : Builder} {location : Location} {tokens : List Token}
    {failure : Failure} :
    b.acceptAll location tokens = .error failure ↔
      ∃ front token back c, tokens = front ++ token :: back ∧
        b.acceptAll location front = .ok c ∧
        c.Refuses (location.after (front.flatMap Token.source)) token failure := by
  constructor
  · intro h
    induction tokens generalizing b location with
    | nil => cases h
    | cons token tokens ih =>
      rw [acceptAll] at h
      cases haccept : b.accept location token with
      | error failure' =>
        rw [haccept] at h
        cases h
        exact ⟨[], token, tokens, b, rfl, rfl, accept_eq_error_iff.mp haccept⟩
      | ok b₁ =>
        rw [haccept] at h
        obtain ⟨front, token', back, c, rfl, hfront, hrefuses⟩ := ih h
        refine ⟨token :: front, token', back, c, rfl, ?_, by simpa using hrefuses⟩
        exact acceptAll_cons_eq_ok_iff.mpr ⟨b₁, haccept, hfront⟩
  · rintro ⟨front, token, back, c, rfl, hfront, hrefuses⟩
    rw [acceptAll_append, hfront]
    dsimp only
    rw [acceptAll, accept_eq_error_iff.mpr hrefuses]

/-- In a run that comes through, every statement is obeyed. -/
theorem exists_obeys_of_mem {b b' : Builder} {location : Location} {tokens : List Token}
    (h : b.acceptAll location tokens = .ok b') {tag : Tag} {k : Keyword}
    (htag : .tag tag ∈ tokens) (hkind : tag.kind = .statement k) :
    ∃ place b₁ b₂, Obeys tag place k b₁ b₂ := by
  induction tokens generalizing b location with
  | nil => cases htag
  | cons token tokens ih =>
    obtain ⟨b₁, haccept, hrest⟩ := acceptAll_cons_eq_ok_iff.mp h
    rcases List.mem_cons.mp htag with rfl | htag
    · exact ⟨_, b, b₁, (accept_statement_eq_ok_iff hkind).mp haccept⟩
    · exact ih hrest htag

/-- A tree is made by a run that comes through and closes all blocks. -/
theorem ofTokens_eq_ok_iff {tokens : List Token} {nodes : List Node} :
    Node.ofTokens tokens = .ok nodes ↔
      ∃ b, start.acceptAll .start tokens = .ok b ∧ b.finish = .ok nodes := by
  rw [Node.ofTokens]
  cases start.acceptAll .start tokens with
  | error failure => simp [Except.bind]
  | ok b => simp [Except.bind]

/-- No tree is made if the run fails or leaves a block open. -/
theorem ofTokens_eq_error_iff {tokens : List Token} {failure : Failure} :
    Node.ofTokens tokens = .error failure ↔
      start.acceptAll .start tokens = .error failure ∨
        ∃ b, start.acceptAll .start tokens = .ok b ∧ b.finish = .error failure := by
  rw [Node.ofTokens]
  cases start.acceptAll .start tokens with
  | error failure => simp [Except.bind]
  | ok b => simp [Except.bind]

end Builder

end DocTemplate
