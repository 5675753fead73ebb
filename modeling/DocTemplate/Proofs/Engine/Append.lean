import DocTemplate.Engine
import DocTemplate.Proofs.Node.Down
import DocTemplate.Proofs.Token.Append

/-!
# Rendering is local

A document that starts with whole lines, which leave no fence open and render on their own, renders
as these lines and the rest would one by one. What fails is the rest, and it fails as it would
alone, as many lines further down as stand in front of it.
-/

namespace DocTemplate

open Fence Text

/-- Behind tokens that make a tree of their own, further tokens make the tree that they make alone,
put behind it and further down. -/
theorem ofTokens_append {tokens tokens' whole : List Token} {front : List Node} {n : Nat}
    (hfront : Node.ofTokens tokens = .ok front)
    (hplace : Location.start.after (tokens.flatMap Token.source) = Location.start.down n)
    (hwhole : BuildAlike whole (tokens ++ tokens')) :
    Node.ofTokens whole =
      match Node.ofTokens tokens' with
      | .ok back => .ok (Node.joinAll front (Node.downAll n back))
      | .error failure => .error (failure.down n) := by
  obtain ⟨c, hc, hfinish⟩ := Builder.ofTokens_eq_ok_iff.mp hfront
  obtain ⟨hframes, -⟩ := Builder.finish_eq_ok_iff.mp hfinish
  rw [Node.ofTokens, Node.ofTokens, hwhole, Builder.acceptAll_append, hc]
  dsimp only
  rw [hplace, ← Builder.start_onto c]
  cases hrun : Builder.start.acceptAll .start tokens' with
  | error failure =>
    have hdown := Builder.acceptAll_start_down_of_error hrun n
    rw [Builder.acceptAll_onto_of_error hdown hframes]
    rfl
  | ok b =>
    have hdown := Builder.acceptAll_start_down hrun n
    rw [Builder.acceptAll_onto hdown c]
    have hfinish' := (b.down n).finish_onto hfinish
    rw [Builder.finish_down] at hfinish'
    simp only [Except.bind, hfinish']
    cases b.finish <;> rfl

/-- The failure of an opener behind whole lines is further down. -/
theorem Unterminated.failure_append {front : Text} (hends : EndsLine front) (u : Unterminated) :
    Unterminated.failure { u with before := front ++ u.before } =
      u.failure.down (front.count '\n') := by
  have hplace : Location.start.after (front ++ u.before) =
      (Location.start.after u.before).down (front.count '\n') := by
    rw [Location.after_append, Location.after_of_endsLine hends rfl, Location.after_down]
  exact congrArg (Failure.mk · _) hplace

namespace Engine

/-- A source has the tree of the tokens that it is scanned like. -/
theorem parseNodes_of_scansAlike {s : Settings} {source : Text} {tokens : List Token}
    (h : ScansAlike s source tokens) : parseNodes s source = Node.ofTokens tokens := by
  obtain ⟨whole, hscan, halike⟩ := h
  rw [parseNodes, hscan]
  exact congrArg (·.bind Builder.finish) (halike .start .start)

/-- Whole lines that leave no fence open and parse on their own are parsed as if nothing followed,
and what follows as if nothing stood in front. -/
theorem parseNodes_append {s : Settings} {front : Text} {nodes : List Node}
    (hends : EndsLine front) (heven : (lines front).countP isDelimiter % 2 = 0)
    (h : parseNodes s front = .ok nodes) (rest : Text) :
    parseNodes s (front ++ rest) =
      match parseNodes s rest with
      | .ok nodes' => .ok (Node.joinAll nodes (Node.downAll (front.count '\n') nodes'))
      | .error failure => .error (failure.down (front.count '\n')) := by
  unfold parseNodes at h ⊢
  cases hscan : scan s front with
  | error u =>
    rw [hscan] at h
    cases h
  | ok tokens =>
    rw [hscan] at h
    have hplace : Location.start.after (tokens.flatMap Token.source) =
        Location.start.down (front.count '\n') := by
      rw [source_of_scan hscan, Location.after_of_endsLine hends rfl]
    have hwhole := scan_append hends heven hscan rest
    cases hrest : scan s rest with
    | error u =>
      rw [hrest] at hwhole
      rw [hwhole]
      exact congrArg Except.error (u.failure_append hends)
    | ok tokens' =>
      rw [hrest] at hwhole
      obtain ⟨whole, hscan', halike⟩ := hwhole
      rw [hscan']
      exact ofTokens_append h hplace halike

/-- Whole lines that leave no fence open and render on their own render as if nothing followed, and
what follows as if nothing stood in front; if it fails, its failure is as many lines further down as
stand in front of it. -/
theorem render_append (e : Engine) (front rest shown : Text) (vars : Variables)
    (hends : EndsLine front) (heven : (lines front).countP isDelimiter % 2 = 0)
    (h : e.render front vars = .ok shown) :
    e.render (front ++ rest) vars =
      match e.render rest vars with
      | .ok shown' => .ok (shown ++ shown')
      | .error failure => .error (failure.down (front.count '\n')) := by
  unfold render at h ⊢
  cases hnodes : parseNodes e.settings front with
  | error failure =>
    rw [hnodes] at h
    cases h
  | ok nodes =>
    rw [hnodes] at h
    rw [parseNodes_append hends heven hnodes rest]
    cases parseNodes e.settings rest with
    | error failure => rfl
    | ok nodes' =>
      have hshown : Node.renderAll e.filters ⟨[], vars⟩ nodes = .ok shown := h
      simp only [Except.bind, Node.renderAll_joinAll, Node.renderAll_downAll, hshown]
      cases Node.renderAll e.filters ⟨[], vars⟩ nodes' <;> rfl

/-- A list below fenced code. -/
def fencedList : Text :=
  "```\n{{ x }}\n```\n".toList ++ "{% for i in x %}\n- {{ i }}\n{% endfor %}\n".toList

/-- The sequence that the list shows. -/
def fencedListVariables : Variables :=
  ⟨[("x".toList, .sequence [.string "a".toList, .string "b".toList])]⟩

/-- The list is shown in front of an interpolation, and a statement behind it fails in its line. -/
theorem render_append_fencedList :
    render {} fencedList fencedListVariables = .ok "```\n{{ x }}\n```\n- a\n- b\n".toList ∧
      render {} (fencedList ++ "{{ x.1 }}".toList) fencedListVariables =
        .ok "```\n{{ x }}\n```\n- a\n- b\nb".toList ∧
      render {} (fencedList ++ " {% endif %}".toList) fencedListVariables =
        .error ⟨⟨7, 2⟩, .misplaced "{% endif %}".toList .unmatchedEndCondition⟩ := by
  have hends : EndsLine fencedList := Or.inr rfl
  have heven : (lines fencedList).countP isDelimiter % 2 = 0 := by decide +kernel
  have hshown : render {} fencedList fencedListVariables =
      .ok "```\n{{ x }}\n```\n- a\n- b\n".toList := by decide +kernel
  refine ⟨hshown, ?_, ?_⟩
  · rw [render_append {} fencedList _ _ fencedListVariables hends heven hshown]
    decide +kernel
  · rw [render_append {} fencedList _ _ fencedListVariables hends heven hshown]
    decide +kernel

end Engine

end DocTemplate
