import DocTemplate.Proofs.Node.Block

/-!
# The grammar of documents

A document is a list of items: a text, an escaped interpolation, an interpolation, or a block that
is opened by a well-formed statement and closed by the keyword that belongs to it, with documents
inside. The open blocks of a tree in the making tell how the tokens so far fall into documents that
are finished and blocks that are not, so a run that closes all blocks has read a document. The other
way round every document is read, whatever is open around it.
-/

namespace DocTemplate

/-- The statement opens a loop: its words are those of a head. -/
def Tag.OpensLoop (tag : Tag) : Prop :=
  tag.kind = .statement .loop ∧
    ∃ head : LoopHead, Text.words tag.content = head.words ∧ isIdentifier head.name = true

/-- The statement opens a condition: its words are those of a path. -/
def Tag.OpensCondition (tag : Tag) : Prop :=
  tag.kind = .statement .condition ∧
    ∃ condition : Path, Text.words tag.content = conditionWords condition

/-- The statement says nothing but its keyword. -/
def Tag.IsBare (tag : Tag) (k : Keyword) : Prop :=
  tag.kind = .statement k ∧ tag.content = k.toText

mutual

/-- The tokens are an item of a document. -/
inductive IsItem : List Token → Prop
  /-- A text. -/
  | text (t : Text) : IsItem [.text t]
  /-- An escaped interpolation. -/
  | escaped (literal : Text) : IsItem [.escaped literal]
  /-- An interpolation. -/
  | interpolation {tag : Tag} (h : tag.kind = .interpolation) : IsItem [.tag tag]
  /-- A loop around a document. -/
  | loop {opening closing : Tag} {body : List Token} (hopen : opening.OpensLoop)
      (hbody : IsDocument body) (hclose : closing.IsBare .endLoop) :
      IsItem (.tag opening :: (body ++ [.tag closing]))
  /-- A condition around a document. -/
  | condition {opening closing : Tag} {consequent : List Token} (hopen : opening.OpensCondition)
      (hconsequent : IsDocument consequent) (hclose : closing.IsBare .endCondition) :
      IsItem (.tag opening :: (consequent ++ [.tag closing]))
  /-- A condition around two documents. -/
  | conditionAlternative {opening separator closing : Tag} {consequent alternative : List Token}
      (hopen : opening.OpensCondition) (hconsequent : IsDocument consequent)
      (hseparate : separator.IsBare .alternative) (halternative : IsDocument alternative)
      (hclose : closing.IsBare .endCondition) :
      IsItem (.tag opening ::
        (consequent ++ .tag separator :: (alternative ++ [.tag closing])))

/-- The tokens are a document: items one behind the other. -/
inductive IsDocument : List Token → Prop
  /-- No item. -/
  | nil : IsDocument []
  /-- An item and the items behind it. -/
  | cons {item rest : List Token} (hitem : IsItem item) (hrest : IsDocument rest) :
      IsDocument (item ++ rest)

end

/-- One item behind a document makes a document. -/
theorem IsDocument.concat {item : List Token} (hitem : IsItem item) :
    ∀ {tokens : List Token}, IsDocument tokens → IsDocument (tokens ++ item)
  | _, .nil => by simpa using IsDocument.cons hitem .nil
  | _, .cons hfirst hrest => by
    rw [List.append_assoc]
    exact .cons hfirst (hrest.concat hitem)

/-! ## What is read is a document -/

/-- The tokens of an open block from the opening tag to where its innermost document starts. -/
inductive OpenBlock.EnteredBy (opening : Tag) : OpenBlock → List Token → Prop
  /-- A loop is entered by its opening tag. -/
  | loop {head : LoopHead} {layout : LoopLayout} (h : opening.OpensLoop) :
      EnteredBy opening (.loop head layout) [.tag opening]
  /-- A condition is entered by its opening tag. -/
  | consequent {condition : Path} (h : opening.OpensCondition) :
      EnteredBy opening (.consequent condition) [.tag opening]
  /-- An alternative is entered behind the document of the first branch. -/
  | alternative {condition : Path} {nodes : List Node} {consequent : List Token} {separator : Tag}
      (h : opening.OpensCondition) (hconsequent : IsDocument consequent)
      (hseparate : separator.IsBare .alternative) :
      EnteredBy opening (.alternative condition nodes)
        (.tag opening :: (consequent ++ [.tag separator]))

/-- The tag opens a block that the tokens behind it leave open, which is the given problem: they are
a document, or in a condition perhaps two with an alternative between them. -/
inductive Tag.StaysOpen (opening : Tag) : Problem → List Token → Prop
  /-- A loop around a document is never closed. -/
  | loop {inner : List Token} (hopen : opening.OpensLoop) (hinner : IsDocument inner) :
      StaysOpen opening .unclosedLoop inner
  /-- A condition around a document is never closed. -/
  | condition {inner : List Token} (hopen : opening.OpensCondition) (hinner : IsDocument inner) :
      StaysOpen opening .unclosedCondition inner
  /-- A condition around two documents is never closed. -/
  | alternative {consequent inner : List Token} {separator : Tag} (hopen : opening.OpensCondition)
      (hconsequent : IsDocument consequent) (hseparate : separator.IsBare .alternative)
      (hinner : IsDocument inner) :
      StaysOpen opening .unclosedCondition (consequent ++ .tag separator :: inner)

/-- The tag of a block that is entered and not closed stays open. -/
theorem OpenBlock.EnteredBy.exists_staysOpen {opening : Tag} {block : OpenBlock}
    {entry inner : List Token} (h : block.EnteredBy opening entry) (hinner : IsDocument inner) :
    ∃ rest, entry ++ inner = .tag opening :: rest ∧ opening.StaysOpen block.unclosed rest := by
  cases h with
  | loop hopen => exact ⟨inner, rfl, .loop hopen hinner⟩
  | consequent hopen => exact ⟨inner, rfl, .condition hopen hinner⟩
  | alternative hopen hconsequent hseparate =>
    exact ⟨_, by simp, .alternative hopen hconsequent hseparate hinner⟩

/-- The tokens so far leave just these blocks open: a document in front of all of them and one
inside each, and every frame names the tag that opened its block and the place of that tag. -/
inductive LeavesOpen : List Token → List Frame → Prop
  /-- A document leaves nothing open. -/
  | document {tokens : List Token} (h : IsDocument tokens) : LeavesOpen tokens []
  /-- A block is entered, and a document stands inside so far. -/
  | block {before entry inner : List Token} {opening : Tag} {frame : Frame} {frames : List Frame}
      (hbefore : LeavesOpen before frames) (hentry : frame.block.EnteredBy opening entry)
      (hinner : IsDocument inner) (htag : frame.tag = opening.raw)
      (hplace : frame.location =
        (Location.start.after (before.flatMap Token.source)).after opening.lead) :
      LeavesOpen (before ++ (entry ++ inner)) (frame :: frames)

namespace LeavesOpen

/-- An item stands in the innermost open block. -/
theorem item {tokens item : List Token} {frames : List Frame} (h : LeavesOpen tokens frames)
    (hitem : IsItem item) : LeavesOpen (tokens ++ item) frames := by
  cases h with
  | document h => exact .document (h.concat hitem)
  | block hbefore hentry hinner htag hplace =>
    rw [List.append_assoc, List.append_assoc]
    exact .block hbefore hentry (hinner.concat hitem) htag hplace

/-- An opening tag leaves its block open. -/
theorem openBlock {tokens : List Token} {tag : Tag} {b : Builder} {block : OpenBlock}
    (h : LeavesOpen tokens b.frames) (hentry : block.EnteredBy tag [.tag tag]) :
    LeavesOpen (tokens ++ [.tag tag]) (b.openBlock block tag.raw
      ((Location.start.after (tokens.flatMap Token.source)).after tag.lead)).frames := by
  rw [← List.append_nil [Token.tag tag]]
  exact .block h hentry .nil rfl rfl

/-- A statement that is obeyed leaves open what the builder keeps on its stack. -/
theorem statement {tokens : List Token} {tag : Tag} {k : Keyword} {b b' : Builder}
    (h : LeavesOpen tokens b.frames) (hkind : tag.kind = .statement k)
    (hobeys : Builder.Obeys tag
      ((Location.start.after (tokens.flatMap Token.source)).after tag.lead) k b b') :
    LeavesOpen (tokens ++ [.tag tag]) b'.frames := by
  cases hobeys with
  | openLoop hhead =>
    have hopen : tag.OpensLoop := ⟨hkind, _, LoopHead.ofText?_eq_some_iff_words.mp hhead⟩
    exact h.openBlock (.loop hopen)
  | openCondition hcondition =>
    have hopen : tag.OpensCondition :=
      ⟨hkind, _, conditionOfText?_eq_some_iff_words.mp hcondition⟩
    exact h.openBlock (.consequent hopen)
  | @alternative body outer condition opening place rest hcontent =>
    cases h with
    | @block before entry inner first frame frames hbefore hentry hinner htag hplace =>
      cases hentry with
      | consequent hopen =>
        have hwhole : LeavesOpen (before ++ (.tag first :: (inner ++ [.tag tag]) ++ []))
            (⟨.alternative condition body.reverse, opening, place, outer⟩ :: rest) :=
          .block hbefore (.alternative hopen hinner ⟨hkind, hcontent⟩) .nil htag hplace
        simpa using hwhole
  | closeLoop hcontent =>
    -- The innermost block with its two tags is one more item of what stands around it.
    cases h with
    | block hbefore hentry hinner htag hplace =>
      cases hentry with
      | loop hopen => simpa using hbefore.item (.loop hopen hinner ⟨hkind, hcontent⟩)
  | closeConsequent hcontent =>
    cases h with
    | block hbefore hentry hinner htag hplace =>
      cases hentry with
      | consequent hopen => simpa using hbefore.item (.condition hopen hinner ⟨hkind, hcontent⟩)
  | closeAlternative hcontent =>
    cases h with
    | block hbefore hentry hinner htag hplace =>
      cases hentry with
      | alternative hopen hconsequent hseparate =>
        simpa using hbefore.item
          (.conditionAlternative hopen hconsequent hseparate hinner ⟨hkind, hcontent⟩)

/-- A token that is accepted leaves open what the builder keeps on its stack. -/
theorem accept {tokens : List Token} {token : Token} {b b' : Builder}
    (h : LeavesOpen tokens b.frames)
    (haccept : b.accept (Location.start.after (tokens.flatMap Token.source)) token = .ok b') :
    LeavesOpen (tokens ++ [token]) b'.frames := by
  cases token with
  | text t =>
    cases haccept
    exact h.item (.text t)
  | escaped literal =>
    cases haccept
    exact h.item (.escaped literal)
  | tag tag =>
    cases hkind : tag.kind with
    | interpolation =>
      simp only [Builder.accept, hkind, Except.ok.injEq] at haccept
      have hframes : b'.frames = b.frames := by
        rw [← haccept, Builder.interpolate]
        split <;> rfl
      rw [hframes]
      exact h.item (.interpolation hkind)
    | statement k =>
      exact h.statement hkind ((Builder.accept_statement_eq_ok_iff hkind).mp haccept)

/-- A run leaves open what the builder keeps on its stack. -/
theorem acceptAll {tokens tokens' : List Token} {b b' : Builder} (h : LeavesOpen tokens b.frames)
    (hrun : b.acceptAll (Location.start.after (tokens.flatMap Token.source)) tokens' = .ok b') :
    LeavesOpen (tokens ++ tokens') b'.frames := by
  induction tokens' generalizing tokens b with
  | nil =>
    cases hrun
    rwa [List.append_nil]
  | cons token tokens' ih =>
    obtain ⟨b₁, haccept, hrest⟩ := Builder.acceptAll_cons_eq_ok_iff.mp hrun
    have hopen := ih (h.accept haccept) (by simpa using hrest)
    simpa using hopen

/-- A run over all tokens leaves open what the builder keeps on its stack. -/
theorem of_run {tokens : List Token} {b : Builder}
    (hrun : Builder.start.acceptAll .start tokens = .ok b) : LeavesOpen tokens b.frames := by
  have hstart : LeavesOpen [] Builder.start.frames := .document .nil
  exact hstart.acceptAll hrun

end LeavesOpen

/-! ## Documents are read -/

open Builder

mutual

/-- An item is accepted whatever is open around it, and leaves just that open. -/
theorem IsItem.exists_acceptAll : ∀ {tokens : List Token}, IsItem tokens →
    ∀ (b : Builder) (location : Location),
      ∃ body, b.acceptAll location tokens = .ok ⟨body, b.frames⟩
  | _, .text _, _, _ => ⟨_, rfl⟩
  | _, .escaped _, _, _ => ⟨_, rfl⟩
  | _, .interpolation hkind, _, _ => by
    simp only [acceptAll, accept, hkind, interpolate]
    split <;> exact ⟨_, rfl⟩
  | _, .loop ⟨hkind, _, hhead⟩ hbody hclose, _, _ => by
    have hread := LoopHead.ofText?_eq_some_iff_words.mpr hhead
    obtain ⟨_, hrun⟩ := hbody.exists_acceptAll _ _
    rw [acceptAll_cons_of_obeys hkind (.openLoop hread), acceptAll_append, hrun]
    dsimp only [openBlock]
    rw [acceptAll_cons_of_obeys hclose.1 (.closeLoop hclose.2)]
    exact ⟨_, rfl⟩
  | _, .condition ⟨hkind, _, hwords⟩ hconsequent hclose, _, _ => by
    have hread := conditionOfText?_eq_some_iff_words.mpr hwords
    obtain ⟨_, hrun⟩ := hconsequent.exists_acceptAll _ _
    rw [acceptAll_cons_of_obeys hkind (.openCondition hread), acceptAll_append, hrun]
    dsimp only [openBlock]
    rw [acceptAll_cons_of_obeys hclose.1 (.closeConsequent hclose.2)]
    exact ⟨_, rfl⟩
  | _, .conditionAlternative hopen hconsequent hseparate halternative hclose, _, _ => by
    obtain ⟨hkind, _, hwords⟩ := hopen
    have hread := conditionOfText?_eq_some_iff_words.mpr hwords
    obtain ⟨_, hrun⟩ := hconsequent.exists_acceptAll _ _
    rw [acceptAll_cons_of_obeys hkind (.openCondition hread), acceptAll_append, hrun]
    dsimp only [openBlock]
    obtain ⟨_, hrun'⟩ := halternative.exists_acceptAll _ _
    rw [acceptAll_cons_of_obeys hseparate.1 (.alternative hseparate.2), acceptAll_append, hrun']
    dsimp only
    rw [acceptAll_cons_of_obeys hclose.1 (.closeAlternative hclose.2)]
    exact ⟨_, rfl⟩

/-- A document is accepted whatever is open around it, and leaves just that open. -/
theorem IsDocument.exists_acceptAll : ∀ {tokens : List Token}, IsDocument tokens →
    ∀ (b : Builder) (location : Location),
      ∃ body, b.acceptAll location tokens = .ok ⟨body, b.frames⟩
  | _, .nil, b, _ => ⟨b.body, rfl⟩
  | _, .cons hitem hrest, b, location => by
    obtain ⟨_, hrun⟩ := hitem.exists_acceptAll b location
    rw [acceptAll_append, hrun]
    exact hrest.exists_acceptAll _ _

end

/-- A run that comes through cannot be finished if a tag opens a block that stays open; the failure
names this tag and its place. -/
theorem exists_staysOpen_of_finish {tokens : List Token} {b : Builder} {failure : Failure}
    (hrun : start.acceptAll .start tokens = .ok b) (h : b.finish = .error failure) :
    ∃ front opening rest problem, tokens = front ++ .tag opening :: rest ∧
      opening.StaysOpen problem rest ∧
      failure = ⟨(Location.start.after (front.flatMap Token.source)).after opening.lead,
        .misplaced opening.raw problem⟩ := by
  have hopen := LeavesOpen.of_run hrun
  obtain ⟨body, frames⟩ := b
  cases hopen with
  | document hdocument => cases h
  | @block before entry inner opening frame frames hbefore hentry hinner htag hplace =>
    cases h
    obtain ⟨rest, htokens, hstays⟩ := hentry.exists_staysOpen hinner
    exact ⟨before, opening, rest, _, by rw [htokens], hstays, by rw [hplace, htag]⟩

/-- Tokens make a tree exactly if they are a document. -/
theorem exists_ofTokens_eq_ok_iff {tokens : List Token} :
    (∃ nodes, Node.ofTokens tokens = .ok nodes) ↔ IsDocument tokens := by
  constructor
  · rintro ⟨nodes, h⟩
    obtain ⟨b, hrun, hfinish⟩ := ofTokens_eq_ok_iff.mp h
    have hopen := LeavesOpen.of_run hrun
    rw [(finish_eq_ok_iff.mp hfinish).1] at hopen
    cases hopen with
    | document h => exact h
  · intro h
    obtain ⟨body, hrun⟩ := h.exists_acceptAll start .start
    exact ⟨body.reverse, ofTokens_eq_ok_iff.mpr ⟨_, hrun, rfl⟩⟩

end DocTemplate
