import DocTemplate.Proofs.Engine.Append
import DocTemplate.Proofs.Node.Block
import DocTemplate.Proofs.Node.Scope
import DocTemplate.Proofs.Text.BlankLines
import DocTemplate.Proofs.Token.Statement

/-!
# Blocks of a source

A loop or a condition whose statements stand on lines of their own renders its inside as a document
of its own: a loop once for each item, with its variable set to the item, and a condition just the
branch that is taken. Failures keep their cause and lie as many lines further down as stand in front
of the part that fails.
-/

namespace DocTemplate

open Fence Text

/-- The value that a path leads to. -/
def Variables.resolve (vars : Variables) (p : Path) : Option Value :=
  (vars.get? p.head).bind (·.lookup p.tail)

/-- A loop whose statements stand on lines of their own. -/
def loopBlock (head : LoopHead) (body : Text) : Text :=
  statementLine head.words ++ (body ++ statementLine [Keyword.endLoop.toText])

example : loopBlock ⟨['x'], Path.ofName ['p'] rfl⟩ "a\n".toList =
    "{% for x in p %}\na\n{% endfor %}\n".toList := rfl

/-- A condition whose statements stand on lines of their own, perhaps with an alternative. -/
def conditionBlock (condition : Path) (consequent : Text) : Option Text → Text
  | some alternative =>
    statementLine (conditionWords condition) ++ (consequent ++
      (statementLine [Keyword.alternative.toText] ++
        (alternative ++ statementLine [Keyword.endCondition.toText])))
  | none =>
    statementLine (conditionWords condition) ++
      (consequent ++ statementLine [Keyword.endCondition.toText])

example : conditionBlock (Path.ofName ['p'] rfl) "a\n".toList (some "b\n".toList) =
    "{% if p %}\na\n{% else %}\nb\n{% endif %}\n".toList := rfl

namespace Engine

/-- A text that may stand inside a block: whole lines that leave no fence open and parse. -/
structure IsPart (s : Settings) (t : Text) : Prop where
  /-- Its last line is whole. -/
  endsLine : EndsLine t
  /-- It opens as many fences as it closes. -/
  even : (lines t).countP isDelimiter % 2 = 0
  /-- It parses on its own. -/
  parses : ∃ nodes, parseNodes s t = .ok nodes

instance (s : Settings) (t : Text) : Decidable (IsPart s t) :=
  decidable_of_iff ((t = [] ∨ t.getLast? = some '\n') ∧
      (lines t).countP isDelimiter % 2 = 0 ∧ (parseNodes s t).isOk = true) <| by
    constructor
    · rintro ⟨hends, heven, hok⟩
      refine ⟨hends, heven, ?_⟩
      cases hnodes : parseNodes s t with
      | error failure =>
        rw [hnodes] at hok
        cases hok
      | ok nodes => exact ⟨nodes, rfl⟩
    · rintro ⟨hends, heven, nodes, hnodes⟩
      exact ⟨hends, heven, by rw [hnodes]; rfl⟩

/-- A part is scanned into tokens that make a tree. -/
theorem IsPart.exists_tokens {s : Settings} {t : Text} (h : IsPart s t) :
    ∃ tokens nodes, scan s t = .ok tokens ∧ Node.ofTokens tokens = .ok nodes ∧
      parseNodes s t = .ok nodes := by
  obtain ⟨nodes, hnodes⟩ := h.parses
  cases hscan : scan s t with
  | error u =>
    rw [parseNodes, hscan] at hnodes
    cases hnodes
  | ok tokens =>
    refine ⟨tokens, nodes, rfl, ?_, hnodes⟩
    rwa [parseNodes, hscan] at hnodes

section Loop

variable {head : LoopHead} {body : Text} (hname : isIdentifier head.name = true)
  (hdash : head.iterable.toText.getLast? ≠ some '-')

include hname hdash

/-- A loop on lines of its own has one node, with the tree of its body one line further down. -/
theorem parseNodes_loopBlock {s : Settings} (hcycles : s.cycles = true) (hbody : IsPart s body) :
    ∃ nodes, parseNodes s body = .ok nodes ∧
      parseNodes s (loopBlock head body) = .ok [.loop head .block (Node.inside 1 nodes)] := by
  obtain ⟨inner, nodes, hscan, htree, hnodes⟩ := hbody.exists_tokens
  have hopen := LoopHead.isSaidBy_words hname hdash
  have hclose := Keyword.isSaidBy_singleton .endLoop
  have hwhole : ScansAlike s (loopBlock head body) (.tag (statementTag .loop head.words) ::
      (inner ++ [.tag (statementTag .endLoop [Keyword.endLoop.toText])])) :=
    scansAlike_statementLine_append hopen hcycles
      (.append hbody.endsLine hbody.even hscan (.of_scan (scan_statementLine hclose hcycles)))
  have hhead : LoopHead.ofText? (statementTag .loop head.words).content = some head :=
    LoopHead.ofText?_eq_some_iff_words.mpr ⟨hopen.words_eq, hname⟩
  refine ⟨nodes, hnodes, ?_⟩
  rw [parseNodes_of_scansAlike hwhole]
  exact ofTokens_loop htree (after_statementLine hopen rfl) rfl hhead rfl rfl

/-- A loop on lines of its own renders its body as a document of its own for each item, with its
variable set to the item, and stacks what is shown without the blank lines at the end. What is no
sequence shows nothing. The first item that fails makes the loop fail, one line further down. -/
theorem render_loopBlock (e : Engine) (vars : Variables) (hcycles : e.settings.cycles = true)
    (hbody : IsPart e.settings body) :
    e.render (loopBlock head body) vars =
      match vars.resolve head.iterable with
      | some (.sequence items) =>
        ((items.mapM fun item => e.render body (vars.insert head.name item)).map
          fun shown => shown.flatMap withoutBlankEnd).mapError (Failure.down 1)
      | _ => .ok [] := by
  obtain ⟨nodes, hnodes, hblock⟩ := parseNodes_loopBlock hname hdash hcycles hbody
  -- Inside the loop the item is a binding, in a document of its own it is a variable.
  have hitem (item : Value) :
      Node.renderAll e.filters ((Scope.mk [] vars).bind head.name item) (Node.inside 1 nodes) =
        (e.render body (vars.insert head.name item)).mapError (Failure.down 1) := by
    rw [Node.renderAll_inside,
      Node.renderAll_eq_of_agrees (Scope.agrees_insert vars head.name item), render, hnodes]
    rfl
  have hitems : (Scope.mk [] vars).items head.iterable =
      match vars.resolve head.iterable with
      | some (.sequence items) => items
      | _ => [] := rfl
  have hjoin (shown : List Text) : LoopLayout.block.join shown = shown.flatMap withoutBlankEnd := by
    rw [LoopLayout.join, stackBlock, funext dropTrailingBlankLines_eq_withoutBlankEnd]
  rw [render, hblock]
  dsimp only [Except.bind]
  rw [Node.renderAll_singleton, Node.render, hitems]
  simp only [hitem, mapM_mapError, hjoin]
  split
  · rename_i items hresolve
    cases items.mapM fun item => e.render body (vars.insert head.name item) <;> rfl
  · rfl

end Loop

/-- The loop `for x in xs`. -/
def loopOverItems : LoopHead := ⟨"x".toList, Path.ofName "xs".toList rfl⟩

/-- Two items, by the name of the sequence. -/
def itemVariables : Variables :=
  ⟨[("xs".toList, .sequence [.string "a".toList, .string "b".toList])]⟩

/-- The blank line behind each item goes, and an unknown filter is found one line further down. -/
theorem render_loopBlock_items :
    render {} (loopBlock loopOverItems "- {{ x }}\n\n".toList) itemVariables =
        .ok "- a\n- b\n".toList ∧
      render {} (loopBlock loopOverItems "- {{ x | f }}\n".toList) itemVariables =
        .error ⟨⟨2, 3⟩, .unknownFilter "f".toList "{{ x | f }}".toList Filters.standard.names⟩ := by
  have hname : isIdentifier loopOverItems.name = true := by decide
  have hdash : loopOverItems.iterable.toText.getLast? ≠ some '-' := by decide
  constructor
  · rw [render_loopBlock hname hdash {} itemVariables rfl (by decide +kernel)]
    decide +kernel
  · rw [render_loopBlock hname hdash {} itemVariables rfl (by decide +kernel)]
    decide +kernel

section Condition

variable {condition : Path} {consequent : Text} (hdash : condition.toText.getLast? ≠ some '-')

include hdash

/-- A condition on lines of its own has one node, with the trees of its branches further down. -/
theorem parseNodes_conditionBlock {s : Settings} (hconditions : s.conditions = true)
    (hconsequent : IsPart s consequent) {alternative? : Option Text}
    (halternative : ∀ alternative ∈ alternative?, IsPart s alternative) :
    ∃ nodes nodes', parseNodes s consequent = .ok nodes ∧
      parseNodes s (alternative?.getD []) = .ok nodes' ∧
      parseNodes s (conditionBlock condition consequent alternative?) =
        .ok [.conditional condition (Node.inside 1 nodes)
          (Node.inside (consequent.count '\n' + 2) nodes')] := by
  obtain ⟨inner, nodes, hscan, htree, hnodes⟩ := hconsequent.exists_tokens
  have hopen := isSaidBy_conditionWords hdash
  have hseparate := Keyword.isSaidBy_singleton .alternative
  have hclose := Keyword.isSaidBy_singleton .endCondition
  have hcondition : conditionOfText?
      (statementTag .condition (conditionWords condition)).content = some condition :=
    conditionOfText?_eq_some_iff_words.mpr hopen.words_eq
  have hend : ScansAlike s (statementLine [Keyword.endCondition.toText])
      [.tag (statementTag .endCondition [Keyword.endCondition.toText])] :=
    .of_scan (scan_statementLine hclose hconditions)
  have hplace : Location.start.after (statementTag .condition (conditionWords condition)).source =
      Location.start.down 1 := after_statementLine hopen rfl
  cases alternative? with
  | none =>
    refine ⟨nodes, [], hnodes, ?_, ?_⟩
    · rw [Option.getD_none, parseNodes_of_scansAlike (.of_scan (scan_nil s))]
      rfl
    · have hwhole := scansAlike_statementLine_append hopen hconditions
        (.append hconsequent.endsLine hconsequent.even hscan hend)
      rw [conditionBlock, parseNodes_of_scansAlike hwhole]
      exact ofTokens_condition htree hplace rfl hcondition rfl rfl
  | some alternative =>
    have hpart := halternative alternative rfl
    obtain ⟨inner', nodes', hscan', htree', hnodes'⟩ := hpart.exists_tokens
    refine ⟨nodes, nodes', hnodes, hnodes', ?_⟩
    have hrest := scansAlike_statementLine_append hseparate hconditions
      (.append hpart.endsLine hpart.even hscan' hend)
    have hwhole := scansAlike_statementLine_append hopen hconditions
      (.append hconsequent.endsLine hconsequent.even hscan hrest)
    have hplace' : Location.start.after ((statementTag .condition (conditionWords condition)).source
        ++ inner.flatMap Token.source ++
          (statementTag .alternative [Keyword.alternative.toText]).source) =
            Location.start.down (consequent.count '\n' + 2) := by
      rw [Location.after_append, Location.after_append, hplace, source_of_scan hscan,
        Location.after_of_endsLine hconsequent.endsLine rfl]
      refine (after_statementLine hseparate rfl).trans ?_
      simp only [Location.down, Location.mk.injEq, and_true]
      omega
    rw [conditionBlock, parseNodes_of_scansAlike hwhole]
    exact ofTokens_condition_alternative htree hplace htree' hplace' rfl hcondition rfl rfl rfl rfl

/-- A condition on lines of its own renders just the branch that is taken, as a document of its
own: the first one if its path leads to a value that counts as true, else the alternative, which is
empty if it is missing. A failure of the branch is further down by the lines in front of it. -/
theorem render_conditionBlock (e : Engine) (vars : Variables)
    (hconditions : e.settings.conditions = true) (hconsequent : IsPart e.settings consequent)
    {alternative? : Option Text}
    (halternative : ∀ alternative ∈ alternative?, IsPart e.settings alternative) :
    e.render (conditionBlock condition consequent alternative?) vars =
      if (vars.resolve condition).any Value.isTruthy then
        (e.render consequent vars).mapError (Failure.down 1)
      else
        (e.render (alternative?.getD []) vars).mapError
          (Failure.down (consequent.count '\n' + 2)) := by
  obtain ⟨nodes, nodes', hnodes, hnodes', hblock⟩ :=
    parseNodes_conditionBlock hdash hconditions hconsequent halternative
  have hholds : (Scope.mk [] vars).holds condition =
      (vars.resolve condition).any Value.isTruthy := by
    rw [Scope.holds, show (Scope.mk [] vars).resolve condition = vars.resolve condition from rfl]
    cases vars.resolve condition <;> rfl
  rw [render, render, render, hblock, hnodes, hnodes']
  dsimp only [Except.bind]
  rw [Node.renderAll_singleton, Node.render, hholds, Node.renderAll_inside, Node.renderAll_inside]

end Condition

/-- The condition `if x`. -/
def conditionOnX : Path := Path.ofName "x".toList rfl

/-- The branch that is not taken may name an unknown filter; where it is taken, since the path leads
nowhere or to a value that does not count as true, the filter is found below the line of the
alternative. An empty sequence counts as true. -/
theorem render_conditionBlock_unknownFilter :
    (∀ value ∈ [.bool true, .sequence []],
      render {} (conditionBlock conditionOnX "yes\n".toList (some "{{ x | f }}\n".toList))
        ⟨[("x".toList, value)]⟩ = .ok "yes\n".toList) ∧
      (∀ vars ∈ [.empty, ⟨[("x".toList, .int 0)]⟩, ⟨[("x".toList, .string [])]⟩],
        render {} (conditionBlock conditionOnX "yes\n".toList (some "{{ x | f }}\n".toList)) vars =
          .error
            ⟨⟨4, 1⟩, .unknownFilter "f".toList "{{ x | f }}".toList Filters.standard.names⟩) ∧
      render {} (conditionBlock conditionOnX "yes\n".toList none) .empty = .ok [] := by
  have hdash : conditionOnX.toText.getLast? ≠ some '-' := by decide
  have hyes : IsPart {} "yes\n".toList := by decide +kernel
  have hfilter : ∀ alternative ∈ some "{{ x | f }}\n".toList, IsPart {} alternative := by
    decide +kernel
  refine ⟨?_, ?_, ?_⟩
  · intro value hvalue
    rw [render_conditionBlock hdash {} _ rfl hyes hfilter]
    revert value
    decide +kernel
  · intro vars hvars
    rw [render_conditionBlock hdash {} _ rfl hyes hfilter]
    revert vars
    decide +kernel
  · rw [render_conditionBlock hdash {} _ rfl hyes (by simp)]
    decide +kernel

end Engine

end DocTemplate
