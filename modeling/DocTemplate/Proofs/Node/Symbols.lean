import DocTemplate.Proofs.Expression.Pipe
import DocTemplate.Proofs.Node.Grammar

/-!
# Reading a tree in order

A tree is read from left to right: the characters of its texts, its interpolations, and of each
block the opening, the inside and the close. Tokens are read likewise, each tag by its words, and a
tree in the making reads as its open blocks from the outermost to the innermost. A step of the
builder adds the reading of its token, so a finished tree reads as its tokens; only an alternative
with nothing in it cannot be told from none. What is text among the tokens is text in the tree.
-/

namespace DocTemplate

/-- A piece of the reading of a document. -/
inductive Symbol where
  /-- A character of a text. -/
  | character (c : Char)
  /-- An interpolation. -/
  | interpolation (i : Interpolation)
  /-- A loop opens. -/
  | openLoop (head : LoopHead) (layout : LoopLayout)
  /-- A loop closes. -/
  | closeLoop
  /-- A condition opens. -/
  | openCondition (condition : Path)
  /-- The alternative of a condition starts. -/
  | alternative
  /-- A condition closes. -/
  | closeCondition
  deriving DecidableEq

mutual

/-- What a node is read as. -/
def Node.symbols : Node → List Symbol
  | .text t => t.map .character
  | .interpolation i => [.interpolation i]
  | .loop head layout body => .openLoop head layout :: (Node.symbolsAll body ++ [.closeLoop])
  | .conditional condition consequent alternative =>
    .openCondition condition :: (Node.symbolsAll consequent ++
      .alternative :: (Node.symbolsAll alternative ++ [.closeCondition]))

/-- What nodes are read as, one behind the other. -/
def Node.symbolsAll : List Node → List Symbol
  | [] => []
  | node :: rest => node.symbols ++ Node.symbolsAll rest

end

/-- What a tag at a place is read as. The head of a block is known by its words, and an
interpolation by the pipe that it writes; one that writes none is text. -/
def Tag.ReadsAs (tag : Tag) (place : Location) (symbols : List Symbol) : Prop :=
  match tag.kind with
  | .interpolation =>
    (∃ pipe : Pipe, pipe.IsWrittenAs tag.content ∧
        symbols = [.interpolation ⟨pipe, tag.raw, place⟩]) ∨
      (∀ pipe : Pipe, ¬ pipe.IsWrittenAs tag.content) ∧ symbols = tag.raw.map .character
  | .statement .loop =>
    ∃ head : LoopHead, Text.words tag.content = head.words ∧
      symbols = [.openLoop head (if tag.isolated then .block else .inline)]
  | .statement .condition =>
    ∃ condition : Path, Text.words tag.content = conditionWords condition ∧
      symbols = [.openCondition condition]
  | .statement .alternative => symbols = [.alternative]
  | .statement .endLoop => symbols = [.closeLoop]
  | .statement .endCondition => symbols = [.closeCondition]

/-- What a token that starts at a location is read as: text character by character, and a tag in its
place. -/
def Token.ReadsAs (location : Location) (symbols : List Symbol) : Token → Prop
  | .text t => symbols = t.map .character
  | .escaped literal => symbols = literal.map .character
  | .tag t => t.ReadsAs (location.after t.lead) symbols

/-- What tokens are read as if the first of them starts at a location. -/
def Token.AllReadAs (location : Location) : List Token → List Symbol → Prop
  | [], symbols => symbols = []
  | token :: rest, symbols => ∃ first others, token.ReadsAs location first ∧
      Token.AllReadAs (location.after token.source) rest others ∧ symbols = first ++ others

/-- A tag is read in one way. -/
theorem Tag.ReadsAs.unique {tag : Tag} {place : Location} {symbols symbols' : List Symbol}
    (h : tag.ReadsAs place symbols) (h' : tag.ReadsAs place symbols') : symbols = symbols' := by
  unfold ReadsAs at h h'
  cases hkind : tag.kind with
  | interpolation =>
    rw [hkind] at h h'
    rcases h with ⟨pipe, hpipe, rfl⟩ | ⟨hnone, rfl⟩
    · rcases h' with ⟨pipe', hpipe', rfl⟩ | ⟨hnone, -⟩
      · rw [hpipe.unique hpipe']
      · exact absurd hpipe (hnone pipe)
    · rcases h' with ⟨pipe', hpipe', -⟩ | ⟨-, rfl⟩
      · exact absurd hpipe' (hnone pipe')
      · rfl
  | statement k =>
    rw [hkind] at h h'
    cases k with
    | loop =>
      obtain ⟨head, hwords, rfl⟩ := h
      obtain ⟨head', hwords', rfl⟩ := h'
      rw [LoopHead.words_injective (hwords.symm.trans hwords')]
    | condition =>
      obtain ⟨condition, hwords, rfl⟩ := h
      obtain ⟨condition', hwords', rfl⟩ := h'
      rw [conditionWords_injective (hwords.symm.trans hwords')]
    | alternative | endLoop | endCondition => exact h.trans h'.symm

/-- A tag is read as an interpolation only if it is one. -/
theorem Tag.ReadsAs.eq_of_interpolation_mem {tag : Tag} {place : Location} {symbols : List Symbol}
    (h : tag.ReadsAs place symbols) {i : Interpolation} (hmem : .interpolation i ∈ symbols) :
    tag.kind = .interpolation ∧ i.pipe.IsWrittenAs tag.content ∧ tag.raw = i.raw ∧
      i.location = place := by
  unfold ReadsAs at h
  cases hkind : tag.kind with
  | interpolation =>
    rw [hkind] at h
    rcases h with ⟨pipe, hpipe, rfl⟩ | ⟨-, rfl⟩
    · obtain rfl := Symbol.interpolation.inj (List.mem_singleton.mp hmem)
      exact ⟨rfl, hpipe, rfl, rfl⟩
    · simp at hmem
  | statement k =>
    rw [hkind] at h
    cases k with
    | loop | condition =>
      obtain ⟨_, -, rfl⟩ := h
      simp at hmem
    | alternative | endLoop | endCondition =>
      obtain rfl := h
      simp at hmem

/-- Tokens are read in one way. -/
theorem Token.AllReadAs.unique {location : Location} {tokens : List Token}
    {symbols symbols' : List Symbol} (h : AllReadAs location tokens symbols)
    (h' : AllReadAs location tokens symbols') : symbols = symbols' := by
  induction tokens generalizing location symbols symbols' with
  | nil => exact h.trans h'.symm
  | cons token rest ih =>
    obtain ⟨first, others, hfirst, hrest, rfl⟩ := h
    obtain ⟨first', others', hfirst', hrest', rfl⟩ := h'
    have htoken : first = first' := by
      cases token with
      | text t | escaped t => exact hfirst.trans hfirst'.symm
      | tag t => exact Tag.ReadsAs.unique hfirst hfirst'
    rw [htoken, ih hrest hrest']

/-- Tokens one behind the other are read one behind the other. -/
theorem Token.AllReadAs.exists_append {front back : List Token} {location : Location}
    {symbols : List Symbol} (h : AllReadAs location (front ++ back) symbols) :
    ∃ before behind, symbols = before ++ behind ∧
      AllReadAs (location.after (front.flatMap Token.source)) back behind := by
  induction front generalizing location symbols with
  | nil => exact ⟨[], symbols, rfl, h⟩
  | cons token front ih =>
    obtain ⟨first, others, -, hrest, rfl⟩ := h
    obtain ⟨before, behind, rfl, hback⟩ := ih hrest
    exact ⟨first ++ before, behind, by simp, by simpa using hback⟩

/-- A reading without the alternatives that close as soon as they start. -/
def withoutEmptyAlternatives : List Symbol → List Symbol :=
  List.foldr (fun s rest =>
    if s = .alternative ∧ rest.head? = some .closeCondition then rest else s :: rest) []

/-! ## Readings that differ in empty alternatives only -/

/-- The readings differ in empty alternatives only, whatever is read behind them. -/
def ReadAlike (symbols symbols' : List Symbol) : Prop :=
  ∀ behind, withoutEmptyAlternatives (symbols ++ behind) =
    withoutEmptyAlternatives (symbols' ++ behind)

namespace ReadAlike

/-- A reading is like itself. -/
theorem refl (symbols : List Symbol) : ReadAlike symbols symbols := fun _ => rfl

variable {symbols symbols' symbols'' : List Symbol} (h : ReadAlike symbols symbols')

include h

/-- Readings that are like the same one are alike. -/
theorem trans (h' : ReadAlike symbols' symbols'') : ReadAlike symbols symbols'' :=
  fun behind => (h behind).trans (h' behind)

/-- Readings that are alike stay so in front of anything. -/
theorem append_right (back : List Symbol) : ReadAlike (symbols ++ back) (symbols' ++ back) := by
  intro behind
  rw [List.append_assoc, List.append_assoc]
  exact h (back ++ behind)

/-- Readings that are alike stay so behind anything. -/
theorem append_left (front : List Symbol) : ReadAlike (front ++ symbols) (front ++ symbols') := by
  intro behind
  have hbehind := h behind
  unfold withoutEmptyAlternatives at hbehind ⊢
  rw [List.append_assoc, List.append_assoc, List.foldr_append, hbehind, ← List.foldr_append]

end ReadAlike

/-- An empty alternative may be missing. -/
theorem readAlike_alternative_closeCondition :
    ReadAlike [.alternative, .closeCondition] [.closeCondition] := by
  intro behind
  simp [withoutEmptyAlternatives]

/-- The first symbol is left out if it starts an alternative that closes at once. -/
theorem withoutEmptyAlternatives_cons (s : Symbol) (rest : List Symbol) :
    withoutEmptyAlternatives (s :: rest) =
      if s = .alternative ∧ (withoutEmptyAlternatives rest).head? = some .closeCondition then
        withoutEmptyAlternatives rest
      else s :: withoutEmptyAlternatives rest := rfl

/-- Nothing but alternatives is left out. -/
theorem mem_withoutEmptyAlternatives {s : Symbol} (hs : s ≠ .alternative) {symbols : List Symbol} :
    s ∈ withoutEmptyAlternatives symbols ↔ s ∈ symbols := by
  induction symbols with
  | nil => rfl
  | cons s' rest ih =>
    rw [withoutEmptyAlternatives_cons]
    split
    · rename_i hleft
      rw [ih, List.mem_cons, hleft.1]
      simp [hs]
    · rw [List.mem_cons, List.mem_cons, ih]

/-- What is read behind others ends the reading. -/
theorem isSuffix_withoutEmptyAlternatives (front back : List Symbol) :
    withoutEmptyAlternatives back <:+ withoutEmptyAlternatives (front ++ back) := by
  induction front with
  | nil => exact List.suffix_rfl
  | cons s front ih =>
    rw [List.cons_append, withoutEmptyAlternatives_cons]
    split
    · exact ih
    · exact ih.trans (List.suffix_cons s _)

/-- Text stays what it is. -/
theorem withoutEmptyAlternatives_map_character_append (t : Text) (back : List Symbol) :
    withoutEmptyAlternatives (t.map .character ++ back) =
      t.map .character ++ withoutEmptyAlternatives back := by
  induction t with
  | nil => rfl
  | cons c t ih =>
    rw [List.map_cons, List.cons_append, withoutEmptyAlternatives_cons, ih, if_neg (by simp),
      List.cons_append]

/-- Text among others stays in a row. -/
theorem isInfix_withoutEmptyAlternatives (front : List Symbol) (t : Text) (back : List Symbol) :
    t.map .character <:+: withoutEmptyAlternatives (front ++ (t.map .character ++ back)) := by
  have hback := isSuffix_withoutEmptyAlternatives front (t.map .character ++ back)
  rw [withoutEmptyAlternatives_map_character_append] at hback
  exact (List.prefix_append _ _).isInfix.trans hback.isInfix

/-- Text at the start of a reading is there without anything being left out. -/
theorem isPrefix_of_isPrefix_withoutEmptyAlternatives {t : Text} {symbols : List Symbol}
    (h : t.map .character <+: withoutEmptyAlternatives symbols) : t.map .character <+: symbols := by
  induction symbols generalizing t with
  | nil => exact h
  | cons s rest ih =>
    cases t with
    | nil => exact List.nil_prefix
    | cons c t =>
      rw [withoutEmptyAlternatives_cons] at h
      split at h
      · rename_i hleft
        obtain ⟨behind, hbehind⟩ := h
        rw [← hbehind] at hleft
        cases Option.some.inj hleft.2
      · obtain ⟨hs, hrest⟩ := List.cons_prefix_cons.mp h
        exact List.cons_prefix_cons.mpr ⟨hs, ih hrest⟩

/-- Text that stands in a row in a reading does so without anything being left out. -/
theorem isInfix_of_isInfix_withoutEmptyAlternatives {t : Text} {symbols : List Symbol}
    (h : t.map .character <:+: withoutEmptyAlternatives symbols) :
    t.map .character <:+: symbols := by
  induction symbols with
  | nil => exact h
  | cons s rest ih =>
    have hcons := withoutEmptyAlternatives_cons s rest
    split at hcons
    · rw [hcons] at h
      exact (ih h).trans (List.suffix_cons s rest).isInfix
    · rw [hcons] at h
      rcases List.infix_cons_iff.mp h with hstart | hlater
      · rw [← hcons] at hstart
        exact (isPrefix_of_isPrefix_withoutEmptyAlternatives hstart).isInfix
      · exact (ih hlater).trans (List.suffix_cons s rest).isInfix

/-! ## Readings of trees in the making -/

/-- Nodes are read one behind the other. -/
theorem Node.symbolsAll_append (front back : List Node) :
    symbolsAll (front ++ back) = symbolsAll front ++ symbolsAll back := by
  induction front with
  | nil => rfl
  | cons node rest ih => rw [List.cons_append, symbolsAll, symbolsAll, ih, List.append_assoc]

/-- The latest node is read last. -/
theorem Node.symbolsAll_reverse_cons (node : Node) (body : List Node) :
    symbolsAll (node :: body).reverse = symbolsAll body.reverse ++ node.symbols := by
  rw [List.reverse_cons, symbolsAll_append, symbolsAll, symbolsAll, List.append_nil]

/-- What an open block is read as up to where its innermost nodes start. -/
def OpenBlock.symbols : OpenBlock → List Symbol
  | loop head layout => [.openLoop head layout]
  | consequent condition => [.openCondition condition]
  | alternative condition nodes =>
    .openCondition condition :: (Node.symbolsAll nodes ++ [.alternative])

/-- What open blocks are read as, with the nodes around them. -/
def Frame.symbolsAll : List Frame → List Symbol
  | [] => []
  | frame :: rest =>
    Frame.symbolsAll rest ++ (Node.symbolsAll frame.outer.reverse ++ frame.block.symbols)

namespace Builder

/-- What a tree in the making is read as. -/
def symbols (b : Builder) : List Symbol :=
  Frame.symbolsAll b.frames ++ Node.symbolsAll b.body.reverse

/-- A new node is read last. -/
theorem symbols_pushNode (b : Builder) (node : Node) :
    (b.pushNode node).symbols = b.symbols ++ node.symbols := by
  rw [symbols, pushNode, Node.symbolsAll_reverse_cons, symbols, List.append_assoc]

/-- New text is read last, whether it joins a text or not. -/
theorem symbols_pushText (b : Builder) (t : Text) :
    (b.pushText t).symbols = b.symbols ++ t.map .character := by
  have hbody : Node.symbolsAll (addText t b.body).reverse =
      Node.symbolsAll b.body.reverse ++ t.map .character := by
    unfold addText
    split
    · rename_i ht
      rw [ht, List.map_nil, List.append_nil]
    · split
      · rename_i before rest hbody
        rw [hbody, Node.symbolsAll_reverse_cons, Node.symbolsAll_reverse_cons, Node.symbols,
          Node.symbols, List.map_append, List.append_assoc]
      · rw [Node.symbolsAll_reverse_cons, Node.symbols]
  rw [symbols, pushText, hbody, symbols, List.append_assoc]

/-- An opened block is read last. -/
theorem symbols_openBlock (b : Builder) (block : OpenBlock) (tag : Text) (location : Location) :
    (b.openBlock block tag location).symbols = b.symbols ++ block.symbols := by
  simp [symbols, openBlock, Frame.symbolsAll, Node.symbolsAll]

/-- An interpolation is read last, whether it is text or not. -/
theorem exists_symbols_interpolate (b : Builder) {tag : Tag} (hkind : tag.kind = .interpolation)
    (place : Location) :
    ∃ symbols, tag.ReadsAs place symbols ∧
      (b.interpolate tag place).symbols = b.symbols ++ symbols := by
  simp only [interpolate, Tag.ReadsAs, hkind]
  cases hpipe : Pipe.ofText? tag.content with
  | some pipe =>
    have hwritten := Pipe.ofText?_eq_some_iff_isWrittenAs.mp hpipe
    exact ⟨_, Or.inl ⟨pipe, hwritten, rfl⟩, b.symbols_pushNode _⟩
  | none =>
    have hnone := Pipe.ofText?_eq_none_iff.mp hpipe
    exact ⟨_, Or.inr ⟨hnone, rfl⟩, b.symbols_pushText tag.raw⟩

/-- A statement that is obeyed is read last. -/
theorem Obeys.exists_readAlike {b b' : Builder} {k : Keyword} {tag : Tag} {place : Location}
    (h : Obeys tag place k b b') (hkind : tag.kind = .statement k) :
    ∃ symbols, tag.ReadsAs place symbols ∧ ReadAlike b'.symbols (b.symbols ++ symbols) := by
  unfold Tag.ReadsAs
  rw [hkind]
  cases h with
  | openLoop hhead =>
    refine ⟨_, ⟨_, (LoopHead.ofText?_eq_some_iff_words.mp hhead).1, rfl⟩, ?_⟩
    rw [symbols_openBlock]
    exact .refl _
  | openCondition hcondition =>
    refine ⟨_, ⟨_, conditionOfText?_eq_some_iff_words.mp hcondition, rfl⟩, ?_⟩
    rw [symbols_openBlock]
    exact .refl _
  | alternative hcontent =>
    refine ⟨_, rfl, ?_⟩
    simp [symbols, Frame.symbolsAll, OpenBlock.symbols, Node.symbolsAll, ReadAlike.refl]
  | closeLoop hcontent =>
    refine ⟨_, rfl, ?_⟩
    simp [symbols, Frame.symbolsAll, OpenBlock.symbols, Node.symbols, Node.symbolsAll,
      Node.symbolsAll_append, ReadAlike.refl]
  | @closeConsequent body outer condition opening place' rest hcontent =>
    -- The node has an alternative that no token stands for, and it is empty.
    have hclose := readAlike_alternative_closeCondition.append_left
      (Builder.symbols ⟨body, ⟨.consequent condition, opening, place', outer⟩ :: rest⟩)
    refine ⟨_, rfl, ?_⟩
    simpa [symbols, Frame.symbolsAll, OpenBlock.symbols, Node.symbols, Node.symbolsAll,
      Node.symbolsAll_append] using hclose
  | closeAlternative hcontent =>
    refine ⟨_, rfl, ?_⟩
    simp [symbols, Frame.symbolsAll, OpenBlock.symbols, Node.symbols, Node.symbolsAll,
      Node.symbolsAll_append, ReadAlike.refl]

/-- A token that is accepted is read last. -/
theorem exists_readAlike_of_accept {b b' : Builder} {location : Location} {token : Token}
    (h : b.accept location token = .ok b') :
    ∃ symbols, token.ReadsAs location symbols ∧ ReadAlike b'.symbols (b.symbols ++ symbols) := by
  cases token with
  | text t | escaped t =>
    cases h
    refine ⟨_, rfl, ?_⟩
    rw [symbols_pushText]
    exact .refl _
  | tag tag =>
    cases hkind : tag.kind with
    | interpolation =>
      simp only [accept, hkind, Except.ok.injEq] at h
      obtain ⟨symbols, hread, hsymbols⟩ :=
        b.exists_symbols_interpolate hkind (location.after tag.lead)
      rw [h] at hsymbols
      refine ⟨symbols, hread, ?_⟩
      rw [hsymbols]
      exact .refl _
    | statement k => exact ((accept_statement_eq_ok_iff hkind).mp h).exists_readAlike hkind

/-- A run that comes through is read as the tokens that it has accepted. -/
theorem exists_readAlike_of_acceptAll {b b' : Builder} {location : Location} {tokens : List Token}
    (h : b.acceptAll location tokens = .ok b') :
    ∃ symbols, Token.AllReadAs location tokens symbols ∧
      ReadAlike b'.symbols (b.symbols ++ symbols) := by
  induction tokens generalizing b location with
  | nil =>
    cases h
    refine ⟨[], rfl, ?_⟩
    rw [List.append_nil]
    exact .refl _
  | cons token tokens ih =>
    obtain ⟨b₁, haccept, hrest⟩ := acceptAll_cons_eq_ok_iff.mp h
    obtain ⟨first, hfirst, halike⟩ := exists_readAlike_of_accept haccept
    obtain ⟨others, hothers, halike'⟩ := ih hrest
    refine ⟨first ++ others, ⟨first, others, hfirst, hothers, rfl⟩, ?_⟩
    rw [← List.append_assoc]
    exact halike'.trans (halike.append_right others)

end Builder

/-- The tree of tokens is read as the tokens are, with an empty alternative as good as none. -/
theorem exists_symbols_of_ofTokens {tokens : List Token} {nodes : List Node}
    (h : Node.ofTokens tokens = .ok nodes) :
    ∃ symbols, Token.AllReadAs .start tokens symbols ∧
      withoutEmptyAlternatives (Node.symbolsAll nodes) = withoutEmptyAlternatives symbols := by
  obtain ⟨b, hrun, hfinish⟩ := Builder.ofTokens_eq_ok_iff.mp h
  obtain ⟨hframes, hbody⟩ := Builder.finish_eq_ok_iff.mp hfinish
  obtain ⟨symbols, hread, halike⟩ := Builder.exists_readAlike_of_acceptAll hrun
  have hsame := halike []
  rw [List.append_nil, List.append_nil, Builder.symbols, hframes, hbody] at hsame
  exact ⟨symbols, hread, hsame⟩

/-- An interpolation that is read stands for a tag in its place. -/
theorem Token.AllReadAs.exists_tag {i : Interpolation} {location : Location}
    {tokens : List Token} {symbols : List Symbol} (h : AllReadAs location tokens symbols)
    (hmem : .interpolation i ∈ symbols) :
    ∃ front tag back, tokens = front ++ .tag tag :: back ∧ tag.kind = .interpolation ∧
      i.pipe.IsWrittenAs tag.content ∧ tag.raw = i.raw ∧
      i.location = (location.after (front.flatMap Token.source)).after tag.lead := by
  induction tokens generalizing location symbols with
  | nil =>
    cases h
    cases hmem
  | cons token tokens ih =>
    obtain ⟨first, others, hfirst, hrest, rfl⟩ := h
    rcases List.mem_append.mp hmem with hmem | hmem
    · cases token with
      | text t | escaped t =>
        cases hfirst
        simp at hmem
      | tag tag =>
        obtain ⟨hkind, hpipe, hraw, hplace⟩ := Tag.ReadsAs.eq_of_interpolation_mem hfirst hmem
        exact ⟨[], tag, tokens, rfl, hkind, hpipe, hraw, hplace⟩
    · obtain ⟨front, tag, back, rfl, hkind, hpipe, hraw, hplace⟩ := ih hrest hmem
      exact ⟨token :: front, tag, back, rfl, hkind, hpipe, hraw, by simpa using hplace⟩

/-- A token that is nothing but text is text in the tree, in a row. -/
theorem isInfix_symbolsAll_of_ofTokens {front back : List Token} {token : Token} {t : Text}
    {nodes : List Node} (h : Node.ofTokens (front ++ token :: back) = .ok nodes)
    (htext : ∀ location symbols, token.ReadsAs location symbols → symbols = t.map .character) :
    t.map .character <:+: Node.symbolsAll nodes := by
  obtain ⟨symbols, hread, hsame⟩ := exists_symbols_of_ofTokens h
  obtain ⟨before, behind, rfl, hbehind⟩ := hread.exists_append
  obtain ⟨first, others, hfirst, -, rfl⟩ := hbehind
  obtain rfl := htext _ _ hfirst
  apply isInfix_of_isInfix_withoutEmptyAlternatives
  rw [hsame]
  exact isInfix_withoutEmptyAlternatives before t others

/-- Tokens make a tree exactly if they are a document. They are then read in one way, and the tree
is read as they are, with an empty alternative as good as none. -/
theorem ofTokens_reads_documents (tokens : List Token) :
    ((∃ nodes, Node.ofTokens tokens = .ok nodes) ↔ IsDocument tokens) ∧
      ∀ nodes, Node.ofTokens tokens = .ok nodes →
        (∃! symbols, Token.AllReadAs .start tokens symbols) ∧
          ∀ symbols, Token.AllReadAs .start tokens symbols →
            withoutEmptyAlternatives (Node.symbolsAll nodes) =
              withoutEmptyAlternatives symbols := by
  refine ⟨exists_ofTokens_eq_ok_iff, fun nodes h => ?_⟩
  obtain ⟨symbols, hread, hsame⟩ := exists_symbols_of_ofTokens h
  refine ⟨⟨symbols, hread, fun symbols' hread' => hread'.unique hread⟩, fun symbols' hread' => ?_⟩
  rw [hread'.unique hread]
  exact hsame

/-- A condition around a text, without an alternative. -/
def conditionTokens : List Token :=
  [.tag ⟨.statement .condition, "if x".toList, [], "{% if x %}".toList, [], false, false⟩,
    .text ['a'],
    .tag ⟨.statement .endCondition, "endif".toList, [], "{% endif %}".toList, [], false, false⟩]

/-- What these tokens are read as. -/
def conditionSymbols : List Symbol :=
  [.openCondition (Path.ofName ['x'] rfl), .character 'a', .closeCondition]

/-- The tree of the condition. -/
def conditionTree : List Node := [.conditional (Path.ofName ['x'] rfl) [.text ['a']] []]

/-- The tree has an alternative that the tokens do not have, and nothing else keeps them apart. -/
theorem ofTokens_reads_documents_condition :
    IsDocument conditionTokens ∧ Token.AllReadAs .start conditionTokens conditionSymbols ∧
      Node.symbolsAll conditionTree ≠ conditionSymbols ∧
      withoutEmptyAlternatives (Node.symbolsAll conditionTree) =
        withoutEmptyAlternatives conditionSymbols := by
  have htree : Node.ofTokens conditionTokens = .ok conditionTree := rfl
  have hread : Token.AllReadAs .start conditionTokens conditionSymbols :=
    ⟨[.openCondition _], _, ⟨Path.ofName ['x'] rfl, by decide, rfl⟩,
      ⟨[.character 'a'], _, rfl, ⟨[.closeCondition], [], rfl, rfl, rfl⟩, rfl⟩, rfl⟩
  obtain ⟨hdocument, hsame⟩ := ofTokens_reads_documents conditionTokens
  exact ⟨hdocument.mp ⟨_, htree⟩, hread, by decide +kernel, (hsame _ htree).2 _ hread⟩

end DocTemplate
