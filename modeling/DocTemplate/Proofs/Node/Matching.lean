import DocTemplate.Proofs.Node.Grammar

/-!
# Tags that close each other

A tag that opens a block is closed where the tokens from it on become one item. In a document every
such tag is closed. A block that stays open holds no tag that closes it, because a document keeps to
the depth at which it starts: read from one block deeper it ends one block deeper, where an item
would have ended one block higher.
-/

namespace DocTemplate

/-- The tag opens a block. -/
def Tag.Opens (tag : Tag) : Prop := tag.OpensLoop ∨ tag.OpensCondition

/-- One of the tokens behind the tag closes it: up to there the tokens are one item. -/
def Tag.IsClosedIn (opening : Tag) (behind : List Token) : Prop :=
  ∃ inner closing rest, behind = inner ++ .tag closing :: rest ∧
    IsItem (.tag opening :: (inner ++ [.tag closing]))

/-- Every one of the tokens that opens a block is closed by a later one. -/
def ClosesAll (tokens : List Token) : Prop :=
  ∀ front tag behind, tokens = front ++ .tag tag :: behind → tag.Opens → tag.IsClosedIn behind

/-! ## Documents close what they open -/

/-- What is closed stays closed whatever comes behind. -/
theorem Tag.IsClosedIn.append {opening : Tag} {behind : List Token} (h : opening.IsClosedIn behind)
    (more : List Token) : opening.IsClosedIn (behind ++ more) := by
  obtain ⟨inner, closing, rest, rfl, hitem⟩ := h
  exact ⟨inner, closing, rest ++ more, by simp, hitem⟩

/-- The first token has to be closed by the others, and each of these by those behind it. -/
theorem closesAll_cons {token : Token} {rest : List Token} :
    ClosesAll (token :: rest) ↔
      (∀ tag, token = .tag tag → tag.Opens → tag.IsClosedIn rest) ∧ ClosesAll rest := by
  constructor
  · intro h
    constructor
    · rintro tag rfl hopens
      exact h [] tag rest rfl hopens
    · intro front tag behind hrest hopens
      exact h (token :: front) tag behind (by rw [hrest, List.cons_append]) hopens
  · rintro ⟨hfirst, hrest⟩ front tag behind htokens hopens
    cases front with
    | nil =>
      obtain ⟨rfl, rfl⟩ := List.cons.inj htokens
      exact hfirst tag rfl hopens
    | cons first front =>
      obtain ⟨-, rfl⟩ := List.cons.inj htokens
      exact hrest front tag behind rfl hopens

/-- Tokens that close what they open do so one behind the other. -/
theorem ClosesAll.append {tokens tokens' : List Token} (h : ClosesAll tokens)
    (h' : ClosesAll tokens') : ClosesAll (tokens ++ tokens') := by
  induction tokens with
  | nil => exact h'
  | cons token tokens ih =>
    obtain ⟨hfirst, hrest⟩ := closesAll_cons.mp h
    refine closesAll_cons.mpr ⟨?_, ih hrest⟩
    intro tag htag hopens
    exact (hfirst tag htag hopens).append tokens'

/-- Where nothing opens, nothing has to be closed. -/
theorem closesAll_singleton {token : Token} (h : ∀ tag, token = .tag tag → ¬ tag.Opens) :
    ClosesAll [token] := by
  refine closesAll_cons.mpr ⟨?_, ?_⟩
  · intro tag htag hopens
    exact absurd hopens (h tag htag)
  · intro front tag behind htokens
    cases front <;> cases htokens

/-- A statement that opens a block is introduced by one of two keywords. -/
theorem Tag.Opens.kind_eq {tag : Tag} (h : tag.Opens) :
    tag.kind = .statement .loop ∨ tag.kind = .statement .condition :=
  h.imp And.left And.left

/-- A statement that says nothing but its keyword opens no block. -/
theorem Tag.IsBare.closesAll {tag : Tag} {k : Keyword} (h : tag.IsBare k)
    (hk : k ≠ .loop ∧ k ≠ .condition) : ClosesAll [.tag tag] := by
  apply closesAll_singleton
  rintro _ ⟨rfl⟩ hopens
  rcases hopens.kind_eq with hkind | hkind
  · rw [h.1] at hkind
    exact hk.1 (by injection hkind)
  · rw [h.1] at hkind
    exact hk.2 (by injection hkind)

mutual

/-- An item closes what it opens. -/
theorem IsItem.closesAll : ∀ {tokens : List Token}, IsItem tokens → ClosesAll tokens
  | _, .text _ => closesAll_singleton (by rintro _ ⟨⟩)
  | _, .escaped _ => closesAll_singleton (by rintro _ ⟨⟩)
  | _, .interpolation hkind => by
    apply closesAll_singleton
    rintro _ ⟨rfl⟩ hopens
    rcases hopens.kind_eq with h | h <;> rw [hkind] at h <;> cases h
  | _, @IsItem.loop _ closing body hopen hbody hclose => by
    refine closesAll_cons.mpr ⟨?_, ?_⟩
    · rintro _ ⟨rfl⟩ -
      exact ⟨body, closing, [], rfl, .loop hopen hbody hclose⟩
    · exact hbody.closesAll.append (hclose.closesAll (by simp))
  | _, @IsItem.condition _ closing consequent hopen hconsequent hclose => by
    refine closesAll_cons.mpr ⟨?_, ?_⟩
    · rintro _ ⟨rfl⟩ -
      exact ⟨consequent, closing, [], rfl, .condition hopen hconsequent hclose⟩
    · exact hconsequent.closesAll.append (hclose.closesAll (by simp))
  | _, @IsItem.conditionAlternative _ separator closing consequent alternative hopen hconsequent
      hseparate halternative hclose => by
    refine closesAll_cons.mpr ⟨?_, ?_⟩
    · rintro _ ⟨rfl⟩ -
      refine ⟨consequent ++ .tag separator :: alternative, closing, [], by simp, ?_⟩
      have hitem : IsItem _ :=
        .conditionAlternative hopen hconsequent hseparate halternative hclose
      simpa using hitem
    · have hback := halternative.closesAll.append (hclose.closesAll (by simp))
      have hbehind := (hseparate.closesAll (by simp)).append hback
      exact hconsequent.closesAll.append hbehind

/-- A document closes what it opens. -/
theorem IsDocument.closesAll : ∀ {tokens : List Token}, IsDocument tokens → ClosesAll tokens
  | _, .nil => by
    intro front tag behind htokens
    cases front <;> cases htokens
  | _, .cons hitem hrest => hitem.closesAll.append hrest.closesAll

end

/-- Behind a tag that stays open every other tag is closed. -/
theorem Tag.StaysOpen.closesAll {opening : Tag} {problem : Problem} {behind : List Token}
    (h : opening.StaysOpen problem behind) : ClosesAll behind := by
  cases h with
  | loop _ hinner => exact hinner.closesAll
  | condition _ hinner => exact hinner.closesAll
  | alternative _ hconsequent hseparate hinner =>
    have hbehind := (hseparate.closesAll (by simp)).append hinner.closesAll
    exact hconsequent.closesAll.append hbehind

/-! ## The depth of blocks -/

/-- How many blocks are open behind a token if `depth` are open in front of it; nothing if it closes
a block and none is open. -/
def Token.depth? (depth : Nat) : Token → Option Nat
  | .text _ | .escaped _ => some depth
  | .tag t =>
    match t.kind with
    | .interpolation | .statement .alternative => some depth
    | .statement .loop | .statement .condition => some (depth + 1)
    | .statement .endLoop | .statement .endCondition => if depth = 0 then none else some (depth - 1)

/-- How many blocks are open behind tokens. -/
def depthAll? (depth : Nat) (tokens : List Token) : Option Nat := tokens.foldlM Token.depth? depth

/-- The first token is read first. -/
theorem depthAll?_cons (depth : Nat) (token : Token) (tokens : List Token) :
    depthAll? depth (token :: tokens) = (token.depth? depth).bind (depthAll? · tokens) :=
  List.foldlM_cons

/-- Tokens are read one behind the other. -/
theorem depthAll?_append (depth : Nat) (tokens tokens' : List Token) :
    depthAll? depth (tokens ++ tokens') = (depthAll? depth tokens).bind (depthAll? · tokens') :=
  List.foldlM_append

/-- A token that opens a block leads one block deeper. -/
theorem Tag.Opens.depth? {tag : Tag} (h : tag.Opens) (depth : Nat) :
    Token.depth? depth (.tag tag) = some (depth + 1) := by
  rcases h.kind_eq with hkind | hkind <;> simp [Token.depth?, hkind]

/-- The start of an alternative is as deep as its end. -/
theorem Tag.IsBare.depth? {tag : Tag} (h : tag.IsBare .alternative) (depth : Nat) :
    Token.depth? depth (.tag tag) = some depth := by
  simp [Token.depth?, h.1]

private theorem depth?_succ {token : Token} {depth last : Nat}
    (h : token.depth? depth = some last) : token.depth? (depth + 1) = some (last + 1) := by
  cases token with
  | text t | escaped t =>
    obtain rfl := Option.some.inj h
    rfl
  | tag tag =>
    dsimp only [Token.depth?] at h ⊢
    generalize tag.kind = kind at h ⊢
    cases kind with
    | interpolation =>
      obtain rfl := Option.some.inj h
      rfl
    | statement k =>
      cases k with
      | loop | condition | alternative =>
        obtain rfl := Option.some.inj h
        rfl
      | endLoop | endCondition =>
        by_cases hzero : depth = 0
        · simp [hzero] at h
        · have hlast : depth - 1 = last := by simpa [hzero] using h
          have hdepth : depth = last + 1 := by omega
          simp [hdepth]

/-- One block more around the tokens is one block more behind them. -/
theorem depthAll?_succ {tokens : List Token} {depth last : Nat}
    (h : depthAll? depth tokens = some last) : depthAll? (depth + 1) tokens = some (last + 1) := by
  induction tokens generalizing depth with
  | nil =>
    obtain rfl := Option.some.inj h
    rfl
  | cons token tokens ih =>
    rw [depthAll?_cons] at h
    obtain ⟨next, hnext, hrest⟩ := Option.bind_eq_some_iff.mp h
    rw [depthAll?_cons, depth?_succ hnext]
    exact ih hrest

mutual

/-- An item ends as deep as it starts. -/
theorem IsItem.depthAll?_eq : ∀ {tokens : List Token}, IsItem tokens →
    ∀ depth, depthAll? depth tokens = some depth
  | _, .text _, _ => rfl
  | _, .escaped _, _ => rfl
  | _, .interpolation hkind, _ => by simp [depthAll?, Token.depth?, hkind]
  | _, .loop hopen hbody hclose, depth => by
    have hdeeper := Tag.Opens.depth? (Or.inl hopen) depth
    rw [depthAll?_cons, hdeeper, Option.bind_some, depthAll?_append, hbody.depthAll?_eq]
    simp [depthAll?, Token.depth?, hclose.1]
  | _, .condition hopen hconsequent hclose, depth => by
    have hdeeper := Tag.Opens.depth? (Or.inr hopen) depth
    rw [depthAll?_cons, hdeeper, Option.bind_some, depthAll?_append, hconsequent.depthAll?_eq]
    simp [depthAll?, Token.depth?, hclose.1]
  | _, .conditionAlternative hopen hconsequent hseparate halternative hclose, depth => by
    have hdeeper := Tag.Opens.depth? (Or.inr hopen) depth
    rw [depthAll?_cons, hdeeper, Option.bind_some, depthAll?_append, hconsequent.depthAll?_eq,
      Option.bind_some, depthAll?_cons, hseparate.depth?, Option.bind_some, depthAll?_append,
      halternative.depthAll?_eq]
    simp [depthAll?, Token.depth?, hclose.1]

/-- A document ends as deep as it starts. -/
theorem IsDocument.depthAll?_eq : ∀ {tokens : List Token}, IsDocument tokens →
    ∀ depth, depthAll? depth tokens = some depth
  | _, .nil, _ => rfl
  | _, .cons hitem hrest, depth => by
    rw [depthAll?_append, hitem.depthAll?_eq, Option.bind_some, hrest.depthAll?_eq]

end

/-- A tag that stays open opens a block. -/
theorem Tag.StaysOpen.opens {opening : Tag} {problem : Problem} {behind : List Token}
    (h : opening.StaysOpen problem behind) : opening.Opens := by
  cases h with
  | loop hopen _ => exact Or.inl hopen
  | condition hopen _ => exact Or.inr hopen
  | alternative hopen _ _ _ => exact Or.inr hopen

/-- Behind a tag that stays open the tokens end as deep as they start. -/
theorem Tag.StaysOpen.depthAll?_eq {opening : Tag} {problem : Problem} {behind : List Token}
    (h : opening.StaysOpen problem behind) (depth : Nat) :
    depthAll? depth behind = some depth := by
  cases h with
  | loop _ hinner => exact hinner.depthAll?_eq depth
  | condition _ hinner => exact hinner.depthAll?_eq depth
  | alternative _ hconsequent hseparate hinner =>
    rw [depthAll?_append, hconsequent.depthAll?_eq, Option.bind_some, depthAll?_cons,
      hseparate.depth?, Option.bind_some, hinner.depthAll?_eq]

/-- A tag that stays open is closed by no later one. -/
theorem Tag.StaysOpen.not_isClosedIn {opening : Tag} {problem : Problem} {behind : List Token}
    (h : opening.StaysOpen problem behind) : ¬ opening.IsClosedIn behind := by
  rintro ⟨inner, closing, rest, rfl, hitem⟩
  have hbehind := h.depthAll?_eq 0
  rw [List.append_cons, depthAll?_append] at hbehind
  obtain ⟨last, hlast, -⟩ := Option.bind_eq_some_iff.mp hbehind
  -- With the opening tag in front the same tokens end one block deeper, and as an item at the top.
  have hzero := hitem.depthAll?_eq 0
  rw [depthAll?_cons, h.opens.depth?, Option.bind_some, depthAll?_succ hlast] at hzero
  cases hzero

end DocTemplate
