import DocTemplate.Proofs.Token.Cut
import DocTemplate.Token

/-!
# Openers and the constructs that they start

Which constructs of a source are examined is told by the source alone: each of them starts at the
leftmost opener that has not been passed and counts, and ends with the first closer of its kind
behind the opener. No opener is missed: each one is passed over in fenced code, or lies in one of
these constructs. The cut of a source finds just these.
-/

namespace DocTemplate

open Fence Text

/-- Whether an opener behind a part of a source does not count: it stands in fenced code while tags
there are off. -/
def Settings.PassesOver (s : Settings) (source before : Text) : Prop :=
  s.conditionsInCode = false ∧ isInside source (utf8Size before) = true

/-- A construct with all of the source in front of it. -/
structure Examined where
  /-- The source in front of it. -/
  before : Text
  /-- The kind of its delimiters. -/
  delimiter : Delimiter
  /-- What stands between its delimiters. -/
  inner : Text

namespace Examined

/-- The construct as it is written. -/
def raw (c : Examined) : Text := c.delimiter.opener ++ c.inner ++ c.delimiter.closer

/-- The bytes of the construct. -/
def range (c : Examined) : Span := ⟨utf8Size c.before, utf8Size (c.before ++ c.raw)⟩

end Examined

/-- The constructs of a source that are examined from behind a first part of it on. -/
inductive Examines (s : Settings) (source : Text) : Text → List Examined → Prop
  /-- No opener that counts is left. -/
  | done {passed : Text} (left : ∀ before d, passed <+: before →
      before ++ Delimiter.opener d <+: source → s.PassesOver source before) :
    Examines s source passed []
  /-- The leftmost opener that counts, with the first closer behind it. -/
  | next {passed : Text} {c : Examined} {cs : List Examined} (behind : passed <+: c.before)
      (whole : c.before ++ c.raw <+: source) (counts : ¬ s.PassesOver source c.before)
      (leftmost : ∀ before d, passed <+: before → before ++ Delimiter.opener d <+: source →
        before.length < c.before.length → s.PassesOver source before)
      (closes : ¬ c.delimiter.closer <:+: c.inner ++ [c.delimiter.closingMark])
      (rest : Examines s source (c.before ++ c.raw) cs) : Examines s source passed (c :: cs)

namespace Examines

variable {s : Settings} {source passed : Text} {cs : List Examined}

/-- Every construct starts behind the part that has been passed. -/
theorem prefix_before (h : Examines s source passed cs) : ∀ c ∈ cs, passed <+: c.before := by
  induction h with
  | done => simp
  | next behind whole counts leftmost closes rest ih =>
    refine List.forall_mem_cons.mpr ⟨behind, fun c hc => ?_⟩
    exact behind.trans ((List.prefix_append _ _).trans (ih c hc))

/-- The constructs do not overlap. -/
theorem pairwise_range (h : Examines s source passed cs) :
    cs.Pairwise fun c c' => c.range.last ≤ c'.range.first := by
  induction h with
  | done => exact List.Pairwise.nil
  | next behind whole counts leftmost closes rest ih =>
    exact List.pairwise_cons.mpr ⟨fun c hc => utf8Size_le_of_isPrefix (rest.prefix_before c hc), ih⟩

/-- No opener starts with the last character of a construct, which is a brace that closes. -/
private theorem not_opener_at_end {c : Examined} {before : Text} {d : Delimiter}
    (hopener : before ++ d.opener <+: source) (whole : c.before ++ c.raw <+: source) :
    before.length + 1 ≠ (c.before ++ c.raw).length := by
  intro hlength
  have hfirst : before ++ ['{'] <+: source := by
    refine List.IsPrefix.trans ?_ hopener
    exact (List.prefix_append_right_inj before).mpr ⟨[d.mark], rfl⟩
  have hsame : before ++ ['{'] = c.before ++ c.raw := by
    refine (List.prefix_of_prefix_length_le hfirst whole ?_).eq_of_length ?_
    · simp [hlength]
    · simp [hlength]
  have hlast := congrArg List.getLast? hsame
  simp [Examined.raw, Delimiter.closer] at hlast

/-- Every opener that counts lies in one of the constructs. -/
theorem exists_mem_of_opener (h : Examines s source passed cs) {before : Text} {d : Delimiter}
    (hbehind : passed <+: before) (hopener : before ++ d.opener <+: source) :
    s.PassesOver source before ∨ ∃ c ∈ cs, c.range.first ≤ utf8Size before ∧
      utf8Size (before ++ d.opener) ≤ c.range.last := by
  induction h with
  | done left => exact Or.inl (left before d hbehind hopener)
  | @next passed c cs behind whole counts leftmost closes rest ih =>
    have hbefore : before <+: source := (List.prefix_append before _).trans hopener
    rcases Nat.lt_or_ge before.length c.before.length with hfirst | hfirst
    · exact Or.inl (leftmost before d hbehind hopener hfirst)
    rcases Nat.lt_or_ge before.length (c.before ++ c.raw).length with hlast | hlast
    · have hwithin : (before ++ d.opener).length ≤ (c.before ++ c.raw).length := by
        have hend := not_opener_at_end hopener whole
        have htwo : d.opener.length = 2 := rfl
        rw [List.length_append, htwo]
        omega
      have hstart := List.prefix_of_prefix_length_le ((List.prefix_append _ _).trans whole) hbefore
        hfirst
      exact Or.inr ⟨c, List.mem_cons_self, utf8Size_le_of_isPrefix hstart,
        utf8Size_le_of_isPrefix (List.prefix_of_prefix_length_le hopener whole hwithin)⟩
    · rcases ih (List.prefix_of_prefix_length_le whole hbefore hlast) with hpassed | ⟨c', hc', hin⟩
      · exact Or.inl hpassed
      · exact Or.inr ⟨c', List.mem_cons_of_mem c hc', hin⟩

/-- The first closer behind an opener is in front of any other. -/
private theorem length_le_of_closes {d : Delimiter} {inner inner' rest : Text}
    (h : inner ++ d.closer <+: rest) (h' : inner' ++ d.closer <+: rest)
    (closes : ¬ d.closer <:+: inner ++ [d.closingMark]) : inner.length ≤ inner'.length := by
  by_contra hlength
  have hmark : inner ++ [d.closingMark] <+: rest := by
    refine List.IsPrefix.trans ?_ h
    exact (List.prefix_append_right_inj inner).mpr ⟨['}'], rfl⟩
  have htwo : d.closer.length = 2 := rfl
  have hwithin : inner' ++ d.closer <+: inner ++ [d.closingMark] :=
    List.prefix_of_prefix_length_le h' hmark (by simp [htwo]; omega)
  exact closes ((List.suffix_append inner' d.closer).isInfix.trans hwithin.isInfix)

/-- At one place there is only one construct. -/
private theorem eq_of_length_before {c c' : Examined} (whole : c.before ++ c.raw <+: source)
    (whole' : c'.before ++ c'.raw <+: source)
    (closes : ¬ c.delimiter.closer <:+: c.inner ++ [c.delimiter.closingMark])
    (closes' : ¬ c'.delimiter.closer <:+: c'.inner ++ [c'.delimiter.closingMark])
    (h : c.before.length = c'.before.length) : c = c' := by
  obtain ⟨before, d, inner⟩ := c
  obtain ⟨before', d', inner'⟩ := c'
  dsimp only at *
  have hbefore : before = before' :=
    (List.prefix_of_prefix_length_le ((List.prefix_append _ _).trans whole)
      ((List.prefix_append _ _).trans whole') h.le).eq_of_length h
  subst hbefore
  obtain ⟨more, rfl⟩ := whole
  rw [List.append_assoc] at whole'
  have hraw := (List.prefix_append_right_inj before).mp whole'
  simp only [Examined.raw, Delimiter.opener, List.append_assoc, List.cons_append,
    List.nil_append] at hraw
  obtain ⟨-, hraw⟩ := List.cons_prefix_cons.mp hraw
  obtain ⟨hmark, hinner'⟩ := List.cons_prefix_cons.mp hraw
  have hdelimiter : d' = d := by
    cases d <;> cases d' <;> first | rfl | exact absurd hmark (by decide)
  subst hdelimiter
  have hinner : inner ++ d'.closer <+: inner ++ (d'.closer ++ more) :=
    (List.prefix_append_right_inj inner).mpr (List.prefix_append _ _)
  have hlength := le_antisymm (length_le_of_closes hinner hinner' closes)
    (length_le_of_closes hinner' hinner closes')
  have hsame : inner = inner' :=
    (List.prefix_of_prefix_length_le ((List.prefix_append _ _).trans hinner)
      ((List.prefix_append _ _).trans hinner') hlength.le).eq_of_length hlength
  rw [hsame]

/-- There is only one way to examine a source. -/
theorem unique {cs' : List Examined} (h : Examines s source passed cs)
    (h' : Examines s source passed cs') : cs = cs' := by
  have hopener {c : Examined} (whole : c.before ++ c.raw <+: source) :
      c.before ++ c.delimiter.opener <+: source := by
    refine List.IsPrefix.trans ?_ whole
    rw [Examined.raw, List.append_assoc]
    exact (List.prefix_append_right_inj _).mpr (List.prefix_append _ _)
  induction h generalizing cs' with
  | done left =>
    cases h' with
    | done => rfl
    | next behind' whole' counts' =>
      exact absurd (left _ _ behind' (hopener whole')) counts'
  | next behind whole counts leftmost closes rest ih =>
    cases h' with
    | done left => exact absurd (left _ _ behind (hopener whole)) counts
    | @next _ c' _ behind' whole' counts' leftmost' closes' rest' =>
      have hplace := le_antisymm
        (not_lt.mp fun hlt => counts' (leftmost _ _ behind' (hopener whole') hlt))
        (not_lt.mp fun hlt => counts (leftmost' _ _ behind (hopener whole) hlt))
      obtain rfl := eq_of_length_before whole whole' closes closes' hplace
      rw [ih rest']

end Examines

/-! ## The cut of a source -/

/-- Every opener in front of the first one that is found is passed over, and so is every opener if
none is found. -/
theorem headD_of_findOpening {suppress : Bool} {flags : List Bool} {source before : Text}
    {d : Delimiter} (hopener : before ++ d.opener <+: source)
    (hleft : ∀ o, findOpening suppress flags source = some o → before.length < o.gap.length) :
    suppress = true ∧ (flagsAfter flags before).headD false = true := by
  fun_induction findOpening suppress flags source generalizing before with
  | case1 flags a b rest d' hd hs ih =>
    have hfenced : suppress = true ∧ flags.headD false = true := by simpa using hs
    obtain ⟨ha, hb⟩ := not_lineFeed_of_opener hd
    rcases before with _ | ⟨x, _ | ⟨y, before⟩⟩
    · exact hfenced
    · obtain ⟨rfl, -⟩ := List.cons_prefix_cons.mp hopener
      rwa [flagsAfter_cons, if_neg ha]
    · rw [List.cons_append, List.cons_append] at hopener
      obtain ⟨hx, htail⟩ := List.cons_prefix_cons.mp hopener
      obtain ⟨hy, hnext⟩ := List.cons_prefix_cons.mp htail
      subst hx hy
      rw [flagsAfter_cons, if_neg ha, flagsAfter_cons, if_neg hb]
      refine ih hnext fun o ho => ?_
      simpa using hleft { o with gap := x :: y :: o.gap } (Option.map_eq_some_iff.mpr ⟨o, ho, rfl⟩)
  | case2 flags a b rest d' hd hs => exact absurd (hleft _ rfl) (Nat.not_lt_zero _)
  | case3 flags a b rest hd ih =>
    rcases before with _ | ⟨x, before⟩
    · obtain ⟨rfl, hmark⟩ := List.cons_prefix_cons.mp hopener
      obtain ⟨rfl, -⟩ := List.cons_prefix_cons.mp hmark
      have hopen := Delimiter.ofOpener?_eq_some_iff.mpr (rfl : ['{', d.mark] = d.opener)
      rw [hd] at hopen
      cases hopen
    · rw [List.cons_append] at hopener
      obtain ⟨hx, hnext⟩ := List.cons_prefix_cons.mp hopener
      subst hx
      rw [flagsAfter_cons]
      refine ih hnext fun o ho => ?_
      simpa using hleft { o with gap := x :: o.gap } (Option.map_eq_some_iff.mpr ⟨o, ho, rfl⟩)
  | case4 source flags hshort =>
    have hlength := hopener.length_le
    have htwo : d.opener.length = 2 := rfl
    rw [List.length_append, htwo] at hlength
    rcases source with _ | ⟨a, _ | ⟨b, rest⟩⟩
    · simp at hlength
    · simp at hlength
    · exact absurd rfl (hshort a b rest)

/-- The pair that is found is the first one. -/
theorem not_infix_of_splitAtPair_eq_some {a b : Char} {t front back : Text}
    (h : splitAtPair a b t = some (front, back)) : ¬ [a, b] <:+: front ++ [a] := by
  fun_induction splitAtPair a b t generalizing front with
  | case1 x y rest hxy =>
    cases h
    intro hinfix
    simpa using hinfix.length_le
  | case2 x y rest hxy ih =>
    obtain ⟨⟨front', back'⟩, hcut, heq⟩ := Option.map_eq_some_iff.mp h
    cases heq
    have hrest := ih hcut
    rw [List.cons_append, List.infix_cons_iff]
    rintro (hfirst | hinfix)
    · obtain ⟨hx, hfirst⟩ := List.cons_prefix_cons.mp hfirst
      have hy : [b] <+: y :: rest := by
        rw [eq_of_splitAtPair hcut]
        exact hfirst.trans ⟨b :: back, by simp⟩
      exact hxy ⟨hx.symm, (List.cons_prefix_cons.mp hy).1.symm⟩
    · exact hrest hinfix
  | case3 => cases h

/-- The constructs of a cut, each with all of the source in front of it. -/
def examinedFrom (passed : Text) : List Construct → List Examined
  | [] => []
  | c :: cs => ⟨passed ++ c.gap, c.delimiter, c.inner⟩ :: examinedFrom (passed ++ c.source) cs

/-- Whether an opener counts is told by the flag of its line. -/
theorem passesOver_iff {s : Settings} {source before : Text} {d : Delimiter}
    (h : before ++ d.opener <+: source) :
    s.PassesOver source before ↔
      (!s.conditionsInCode) = true ∧ (flagsAfter (lineFlags source) before).headD false = true := by
  obtain ⟨more, rfl⟩ := h
  have hsource : before ++ d.opener ++ more = before ++ '{' :: d.mark :: more := by
    simp [Delimiter.opener]
  rw [Settings.PassesOver, hsource, isInside_of_char (Nat.le_refl _)
    (Nat.lt_add_of_pos_right (Char.utf8Size_pos '{')), Bool.not_eq_true']

/-- A cut has the constructs that are examined. -/
theorem examines_of_ofFlagged {s : Settings} {source passed rest : Text} {flags : List Bool}
    {cut : Cut} (hsource : passed ++ rest = source)
    (hflags : flags = flagsAfter (lineFlags source) passed)
    (h : Cut.ofFlagged (!s.conditionsInCode) flags rest = .ok cut) :
    Examines s source passed (examinedFrom passed cut.constructs) := by
  -- Openers behind the passed part are openers of the rest, under the flags that are left.
  have hpasses {passed rest : Text} {flags : List Bool} (hsource : passed ++ rest = source)
      (hflags : flags = flagsAfter (lineFlags source) passed) {before : Text} {d : Delimiter}
      (hbehind : passed <+: before) (hopener : before ++ d.opener <+: source)
      (hleft : ∀ o, findOpening (!s.conditionsInCode) flags rest = some o →
        before.length < passed.length + o.gap.length) : s.PassesOver source before := by
    obtain ⟨gap, rfl⟩ := hbehind
    rw [passesOver_iff hopener, flagsAfter_append, ← hflags]
    rw [← hsource, List.append_assoc] at hopener
    refine headD_of_findOpening ((List.prefix_append_right_inj passed).mp hopener) fun o ho => ?_
    have hlength := hleft o ho
    rw [List.length_append] at hlength
    omega
  induction flags, rest using Cut.ofFlagged.induct (!s.conditionsInCode)
    generalizing passed cut with
  | case1 flags rest hopen =>
    rw [Cut.ofFlagged_of_none hopen] at h
    cases h
    refine .done fun before d hbehind hopener => hpasses hsource hflags hbehind hopener ?_
    intro o ho
    rw [hopen] at ho
    cases ho
  | case2 flags rest o hopen hclose =>
    rw [Cut.ofFlagged_of_unclosed hopen hclose] at h
    cases h
  | case3 flags rest o hopen inner behind hclose u hrest ih =>
    rw [Cut.ofFlagged_of_closed hopen hclose, hrest] at h
    cases h
  | case4 flags rest o hopen inner behind hclose cut' hrest ih =>
    rw [Cut.ofFlagged_of_closed hopen hclose, hrest] at h
    cases h
    obtain ⟨hwhole, hnext⟩ := Construct.source_of_splitAtPair hopen hclose (o.flags.headD false)
    rw [examinedFrom]
    generalize hc : Construct.mk o.gap o.delimiter inner (o.flags.headD false) = c at hwhole hnext
    have hgap : c.gap = o.gap := by rw [← hc]
    have hraw : Examined.raw ⟨passed ++ c.gap, c.delimiter, c.inner⟩ = c.raw := rfl
    have hthrough : passed ++ c.gap ++ c.raw = passed ++ c.source := by
      rw [List.append_assoc, Construct.source]
    have hsource' : passed ++ c.source ++ behind = source := by
      rw [List.append_assoc, ← hwhole, hsource]
    refine .next (List.prefix_append passed c.gap) ?_ ?_ ?_ ?_ ?_
    · rw [hraw, hthrough]
      exact ⟨behind, hsource'⟩
    · intro hfenced
      have hopener : passed ++ c.gap ++ c.delimiter.opener <+: source := by
        rw [← hsource', ← hthrough, Construct.raw]
        exact ⟨c.inner ++ c.delimiter.closer ++ behind, by simp⟩
      obtain ⟨hsuppress, hflag⟩ := (passesOver_iff hopener).mp hfenced
      rw [hsuppress] at hopen
      have hunfenced := headD_flags_of_findOpening hopen
      rw [flags_of_findOpening hopen, hflags, ← flagsAfter_append, ← hgap, hflag] at hunfenced
      cases hunfenced
    · intro before d hbehind hopener hlength
      refine hpasses hsource hflags hbehind hopener fun o' ho' => ?_
      rw [hopen] at ho'
      cases ho'
      simpa [hgap] using hlength
    · rw [← hc]
      exact not_infix_of_splitAtPair_eq_some hclose
    · rw [hraw, hthrough]
      refine ih hsource' ?_ hrest
      rw [hnext, hflags, flagsAfter_append]

end DocTemplate
