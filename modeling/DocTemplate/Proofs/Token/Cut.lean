import DocTemplate.Construct
import DocTemplate.Proofs.Fence.Flags
import Mathlib.Data.List.Induction

/-!
# The cut of a source into constructs

A cut loses nothing: its constructs with their gaps and its tail are the source again. While
openers in fenced code are passed over, every construct starts on an unfenced line. Behind a part
that ends its line and is cut without a remainder, the cut goes on as if the source started there.
-/

namespace DocTemplate

open Fence Text

/-- No line feed belongs to an opener. -/
theorem not_lineFeed_of_opener {a b : Char} {d : Delimiter}
    (h : Delimiter.ofOpener? a b = some d) : a ≠ '\n' ∧ b ≠ '\n' := by
  obtain ⟨rfl, hb⟩ := List.cons_eq_cons.mp (Delimiter.ofOpener?_eq_some_iff.mp h)
  obtain ⟨rfl, -⟩ := List.cons_eq_cons.mp hb
  cases d <;> decide

/-- The flags that an opener is found with are what the text in front of it leaves. -/
theorem flags_of_findOpening {suppress : Bool} {flags : List Bool} {source : Text} {o : Opening}
    (h : findOpening suppress flags source = some o) : o.flags = flagsAfter flags o.gap := by
  fun_induction findOpening suppress flags source generalizing o with
  | case1 flags a b rest d hd hs ih =>
    obtain ⟨o', ho', rfl⟩ := Option.map_eq_some_iff.mp h
    obtain ⟨ha, hb⟩ := not_lineFeed_of_opener hd
    rw [flagsAfter_cons, if_neg ha, flagsAfter_cons, if_neg hb, ← ih ho']
  | case2 flags a b rest d hd hs =>
    cases h
    rfl
  | case3 flags a b rest hd ih =>
    obtain ⟨o', ho', rfl⟩ := Option.map_eq_some_iff.mp h
    rw [flagsAfter_cons, ← ih ho']
  | case4 => cases h

/-- No opener is found on a fenced line while these are passed over. -/
theorem headD_flags_of_findOpening {flags : List Bool} {source : Text} {o : Opening}
    (h : findOpening true flags source = some o) : o.flags.headD false = false := by
  fun_induction findOpening true flags source generalizing o with
  | case1 flags a b rest d hd hs ih =>
    obtain ⟨o', ho', rfl⟩ := Option.map_eq_some_iff.mp h
    exact ih (o := o') ho'
  | case2 flags a b rest d hd hs =>
    cases h
    simpa using hs
  | case3 flags a b rest hd ih =>
    obtain ⟨o', ho', rfl⟩ := Option.map_eq_some_iff.mp h
    exact ih (o := o') ho'
  | case4 => cases h

private theorem findOpening_lineFeed (suppress : Bool) (flags : List Bool) (t : Text) :
    findOpening suppress flags ('\n' :: t) =
      (findOpening suppress flags.tail t).map fun o => { o with gap := '\n' :: o.gap } := by
  cases t with
  | nil => rfl
  | cons c t => rfl

/-- A pair that is found stays the first one whatever follows. -/
theorem splitAtPair_append {a b : Char} {s inner rest : Text}
    (h : splitAtPair a b s = some (inner, rest)) (t : Text) :
    splitAtPair a b (s ++ t) = some (inner, rest ++ t) := by
  fun_induction splitAtPair a b s generalizing inner with
  | case1 x y s hxy =>
    cases h
    rw [List.cons_append, List.cons_append, splitAtPair, if_pos hxy]
  | case2 x y s hxy ih =>
    obtain ⟨⟨inner', rest'⟩, hcut, heq⟩ := Option.map_eq_some_iff.mp h
    cases heq
    rw [List.cons_append, List.cons_append, splitAtPair, if_neg hxy, ← List.cons_append, ih hcut]
    rfl
  | case3 => cases h

/-- Where no cut is made, the pair does not occur. -/
theorem not_infix_of_splitAtPair {a b : Char} {t : Text} (h : splitAtPair a b t = none) :
    ¬ [a, b] <:+: t := by
  fun_induction splitAtPair a b t with
  | case1 x y rest hxy => cases h
  | case2 x y rest hxy ih =>
    have hrest := ih (Option.map_eq_none_iff.mp h)
    rw [List.infix_cons_iff]
    rintro (hfirst | hinfix)
    · simp only [List.cons_prefix_cons] at hfirst
      exact hxy ⟨hfirst.1.symm, hfirst.2.1.symm⟩
    · exact hrest hinfix
  | case3 t hshort =>
    intro hinfix
    have hlength := hinfix.length_le
    rcases t with _ | ⟨x, _ | ⟨y, rest⟩⟩
    · simp at hlength
    · simp at hlength
    · exact hshort x y rest rfl

/-- The search through a part that ends its line: an opener in it is found whatever follows, and
without one the search goes on behind it. -/
theorem findOpening_append (suppress : Bool) {front : List Bool} {s : Text} (hs : EndsLine s)
    (hfront : front.length = s.count '\n') (below below' : List Bool) (t : Text) :
    findOpening suppress (front ++ below') (s ++ t) =
      match findOpening suppress (front ++ below) s with
      | some o =>
        some ⟨o.gap, o.delimiter, flagsAfter front o.gap ++ below', o.rest ++ t⟩
      | none => (findOpening suppress below' t).map fun o => { o with gap := s ++ o.gap } := by
  -- An opener in fenced code is passed over in two characters.
  induction s using List.twoStepInduction generalizing front with
  | nil =>
    obtain rfl : front = [] := List.eq_nil_of_length_eq_zero hfront
    simp [findOpening]
  | singleton c =>
    obtain rfl : c = '\n' := by simpa [EndsLine] using hs
    obtain ⟨flag, rfl⟩ := List.length_eq_one_iff.mp hfront
    exact findOpening_lineFeed suppress _ t
  | cons_cons a b rest ihRest ihNext =>
    have hflag : (front ++ below').headD false = (front ++ below).headD false :=
      headD_append_flags (hfront ▸ List.count_pos_iff.mpr (hs.mem (by simp))) below' below
    cases hd : Delimiter.ofOpener? a b with
    | some d =>
      obtain ⟨ha, hb⟩ := not_lineFeed_of_opener hd
      rw [List.count_cons_of_ne ha, List.count_cons_of_ne hb] at hfront
      simp only [List.cons_append, findOpening, hd, hflag]
      by_cases hsuppress : (suppress && (front ++ below).headD false) = true
      · rw [if_pos hsuppress, if_pos hsuppress, ihRest hs.of_cons.of_cons hfront]
        cases findOpening suppress (front ++ below) rest with
        | some o => simp [flagsAfter_cons, ha, hb]
        | none => simp [Function.comp_def]
      · rw [if_neg hsuppress, if_neg hsuppress]
        rfl
    | none =>
      simp only [List.cons_append, findOpening, hd]
      by_cases ha : a = '\n'
      · subst ha
        rw [List.count_cons_self] at hfront
        obtain ⟨flag, front, rfl⟩ := List.exists_cons_of_length_eq_add_one hfront
        have hcount : front.length = (b :: rest).count '\n' := by simpa using hfront
        have hnext := ihNext b hs.of_cons hcount
        rw [List.cons_append] at hnext
        simp only [if_true, List.cons_append, List.tail_cons, hnext]
        cases findOpening suppress (front ++ below) (b :: rest) with
        | some o => simp [flagsAfter_cons]
        | none => simp [Function.comp_def]
      · rw [List.count_cons_of_ne ha] at hfront
        have hnext := ihNext b hs.of_cons hfront
        rw [List.cons_append] at hnext
        simp only [if_neg ha, hnext]
        cases findOpening suppress (front ++ below) (b :: rest) with
        | some o => simp [flagsAfter_cons, ha]
        | none => simp [Function.comp_def]

namespace Construct

/-- The delimiters of a construct hold no line feed. -/
theorem count_source (c : Construct) :
    c.source.count '\n' = c.gap.count '\n' + c.inner.count '\n' := by
  cases hd : c.delimiter <;> simp [source, raw, hd, Delimiter.opener, Delimiter.closer,
    Delimiter.mark, Delimiter.closingMark]

/-- The construct starts on an unfenced line, by the flags from its gap on. -/
def StartsUnfenced (flags : List Bool) (c : Construct) : Prop :=
  (flagsAfter flags c.gap).headD false = false

/-- An opener with the closer behind it makes a construct that is a first part of the source, and
the flags that the cut goes on with are what this part leaves. -/
theorem source_of_splitAtPair {suppress : Bool} {flags : List Bool} {source inner rest : Text}
    {o : Opening} (hopen : findOpening suppress flags source = some o)
    (hclose : splitAtPair o.delimiter.closingMark '}' o.rest = some (inner, rest)) (fenced : Bool) :
    source = (Construct.mk o.gap o.delimiter inner fenced).source ++ rest ∧
      o.flags.drop (inner.count '\n') =
        flagsAfter flags (Construct.mk o.gap o.delimiter inner fenced).source := by
  constructor
  · rw [eq_of_findOpening hopen, eq_of_splitAtPair hclose]
    simp [Construct.source, raw, Delimiter.closer]
  · rw [flags_of_findOpening hopen, flagsAfter, flagsAfter, count_source, List.drop_drop]

/-- What ends its line holds a line feed behind each of its constructs. -/
theorem mem_of_endsLine (c : Construct) {t : Text} (h : EndsLine (c.source ++ t)) : '\n' ∈ t := by
  have hsplit : c.source ++ t =
      (c.gap ++ c.delimiter.opener ++ c.inner ++ [c.delimiter.closingMark]) ++ '}' :: t := by
    simp [source, raw, Delimiter.closer]
  rw [hsplit] at h
  exact h.mem_of_append_cons (by decide)

end Construct

namespace Cut

variable {suppress : Bool} {flags : List Bool} {source : Text}

/-- Without an opener all of a source is plain text. -/
theorem ofFlagged_of_none (hopen : findOpening suppress flags source = none) :
    ofFlagged suppress flags source = .ok ⟨[], source⟩ := by
  rw [ofFlagged]
  split
  · rfl
  · rename_i o ho
    rw [hopen] at ho
    cases ho

/-- An opener without a closer makes the cut fail. -/
theorem ofFlagged_of_unclosed {o : Opening} (hopen : findOpening suppress flags source = some o)
    (hclose : splitAtPair o.delimiter.closingMark '}' o.rest = none) :
    ofFlagged suppress flags source = .error ⟨o.gap, o.delimiter, o.rest⟩ := by
  rw [ofFlagged]
  split
  · rename_i ho
    rw [hopen] at ho
    cases ho
  · rename_i o' ho
    obtain rfl := Option.some.inj (hopen.symm.trans ho)
    split
    · rfl
    · rename_i hc
      rw [hclose] at hc
      cases hc

/-- The construct of an opener and its closer comes first, and the cut goes on behind it. -/
theorem ofFlagged_of_closed {o : Opening} {inner rest : Text}
    (hopen : findOpening suppress flags source = some o)
    (hclose : splitAtPair o.delimiter.closingMark '}' o.rest = some (inner, rest)) :
    ofFlagged suppress flags source =
      match ofFlagged suppress (o.flags.drop (inner.count '\n')) rest with
      | .error u =>
        let construct : Construct := ⟨o.gap, o.delimiter, inner, o.flags.headD false⟩
        .error { u with before := construct.source ++ u.before }
      | .ok cut =>
        .ok ⟨⟨o.gap, o.delimiter, inner, o.flags.headD false⟩ :: cut.constructs, cut.tail⟩ := by
  rw [ofFlagged]
  split
  · rename_i ho
    rw [hopen] at ho
    cases ho
  · rename_i o' ho
    obtain rfl := Option.some.inj (hopen.symm.trans ho)
    split
    · rename_i hc
      rw [hclose] at hc
      cases hc
    · rename_i inner' rest' hc
      obtain ⟨rfl, rfl⟩ := Prod.mk.inj (Option.some.inj (hclose.symm.trans hc))
      rfl

/-- A cut loses nothing of its source. -/
theorem source_of_ofFlagged {cut : Cut} (h : ofFlagged suppress flags source = .ok cut) :
    cut.source = source := by
  induction flags, source using ofFlagged.induct suppress generalizing cut with
  | case1 flags source hopen =>
    rw [ofFlagged_of_none hopen] at h
    cases h
    rfl
  | case2 flags source o hopen hclose =>
    rw [ofFlagged_of_unclosed hopen hclose] at h
    cases h
  | case3 flags source o hopen inner rest hclose u hrest ih =>
    rw [ofFlagged_of_closed hopen hclose, hrest] at h
    cases h
  | case4 flags source o hopen inner rest hclose cut' hrest ih =>
    rw [ofFlagged_of_closed hopen hclose, hrest] at h
    cases h
    rw [(Construct.source_of_splitAtPair hopen hclose (o.flags.headD false)).1, ← ih hrest]
    simp [Cut.source]

/-- Where a cut fails, the source goes on with an opener that no closer follows. -/
theorem source_of_ofFlagged_eq_error {u : Unterminated}
    (h : ofFlagged suppress flags source = .error u) :
    source = u.before ++ (u.delimiter.opener ++ u.rest) ∧ ¬ u.delimiter.closer <:+: u.rest := by
  induction flags, source using ofFlagged.induct suppress generalizing u with
  | case1 flags source hopen =>
    rw [ofFlagged_of_none hopen] at h
    cases h
  | case2 flags source o hopen hclose =>
    rw [ofFlagged_of_unclosed hopen hclose] at h
    cases h
    exact ⟨by simpa using eq_of_findOpening hopen, not_infix_of_splitAtPair hclose⟩
  | case3 flags source o hopen inner rest hclose u' hrest ih =>
    rw [ofFlagged_of_closed hopen hclose, hrest] at h
    cases h
    obtain ⟨hsource, hnot⟩ := ih hrest
    refine ⟨?_, hnot⟩
    rw [(Construct.source_of_splitAtPair hopen hclose (o.flags.headD false)).1, List.append_assoc,
      ← hsource]
  | case4 flags source o hopen inner rest hclose cut' hrest ih =>
    rw [ofFlagged_of_closed hopen hclose, hrest] at h
    cases h

/-- While openers in fenced code are passed over, every construct starts on an unfenced line. -/
theorem along_of_ofFlagged {cut : Cut} (h : ofFlagged true flags source = .ok cut) :
    Along Construct.StartsUnfenced Construct.source flags cut.constructs := by
  induction flags, source using ofFlagged.induct true generalizing cut with
  | case1 flags source hopen =>
    rw [ofFlagged_of_none hopen] at h
    cases h
    trivial
  | case2 flags source o hopen hclose =>
    rw [ofFlagged_of_unclosed hopen hclose] at h
    cases h
  | case3 flags source o hopen inner rest hclose u hrest ih =>
    rw [ofFlagged_of_closed hopen hclose, hrest] at h
    cases h
  | case4 flags source o hopen inner rest hclose cut' hrest ih =>
    rw [ofFlagged_of_closed hopen hclose, hrest] at h
    cases h
    refine ⟨?_, ?_⟩
    · rw [Construct.StartsUnfenced, ← flags_of_findOpening hopen]
      exact headD_flags_of_findOpening hopen
    · rw [← (Construct.source_of_splitAtPair hopen hclose (o.flags.headD false)).2]
      exact ih hrest

/-- Every construct of a cut starts with an opener of the source and reaches to the next closer,
and while openers in fenced code are passed over, its opener is on an unfenced line. -/
theorem exists_opener_of_mem {cut : Cut} (h : ofFlagged suppress flags source = .ok cut)
    {c : Construct} (hc : c ∈ cut.constructs) :
    ∃ before rest after, source = before ++ (c.delimiter.opener ++ rest) ∧
      splitAtPair c.delimiter.closingMark '}' rest = some (c.inner, after) ∧
      (suppress = true → (flagsAfter flags before).headD false = false) := by
  induction flags, source using ofFlagged.induct suppress generalizing cut with
  | case1 flags source hopen =>
    rw [ofFlagged_of_none hopen] at h
    cases h
    cases hc
  | case2 flags source o hopen hclose =>
    rw [ofFlagged_of_unclosed hopen hclose] at h
    cases h
  | case3 flags source o hopen inner rest hclose u hrest ih =>
    rw [ofFlagged_of_closed hopen hclose, hrest] at h
    cases h
  | case4 flags source o hopen inner rest hclose cut' hrest ih =>
    rw [ofFlagged_of_closed hopen hclose, hrest] at h
    cases h
    rcases List.mem_cons.mp hc with rfl | hc
    · refine ⟨o.gap, o.rest, rest, by simpa using eq_of_findOpening hopen, hclose, ?_⟩
      rintro rfl
      rw [← flags_of_findOpening hopen]
      exact headD_flags_of_findOpening hopen
    · obtain ⟨before, rest', after, hsource, hclose', hunfenced⟩ := ih hrest hc
      obtain ⟨hwhole, hflags⟩ :=
        Construct.source_of_splitAtPair hopen hclose (o.flags.headD false)
      refine ⟨(Construct.mk o.gap o.delimiter inner (o.flags.headD false)).source ++ before, rest',
        after, ?_, hclose', fun hsuppress => ?_⟩
      · rw [hwhole, hsource, List.append_assoc]
      · rw [flagsAfter_append, ← hflags]
        exact hunfenced hsuppress

/-- Two cuts in a row: the tail of the first joins the next gap. -/
def append (cut cut' : Cut) : Cut :=
  match cut'.constructs with
  | [] => ⟨cut.constructs, cut.tail ++ cut'.tail⟩
  | c :: cs => ⟨cut.constructs ++ { c with gap := cut.tail ++ c.gap } :: cs, cut'.tail⟩

/-- Behind a part that ends its line and is cut without a remainder, the cut goes on as if the
source started there. -/
theorem ofFlagged_append {front : List Bool} {s : Text} (hs : EndsLine s)
    (hfront : front.length = s.count '\n') {below : List Bool} {cut : Cut}
    (h : ofFlagged suppress (front ++ below) s = .ok cut) (below' : List Bool) (t : Text) :
    ofFlagged suppress (front ++ below') (s ++ t) =
      match ofFlagged suppress below' t with
      | .ok cut' => .ok (cut.append cut')
      | .error u => .error { u with before := s ++ u.before } := by
  generalize hflags : front ++ below = flags at h
  induction flags, s using ofFlagged.induct suppress generalizing front cut with
  | case1 flags s hopen =>
    rw [ofFlagged_of_none hopen] at h
    cases h
    have happend := findOpening_append suppress hs hfront below below' t
    subst hflags
    rw [hopen] at happend
    cases ht : findOpening suppress below' t with
    | none =>
      rw [ofFlagged_of_none ht, ofFlagged_of_none (by rw [happend, ht]; rfl)]
      rfl
    | some o =>
      rw [ht] at happend
      cases hclose : splitAtPair o.delimiter.closingMark '}' o.rest with
      | none =>
        rw [ofFlagged_of_unclosed ht hclose, ofFlagged_of_unclosed happend hclose]
      | some closed =>
        obtain ⟨inner, rest⟩ := closed
        rw [ofFlagged_of_closed ht hclose, ofFlagged_of_closed happend hclose]
        cases ofFlagged suppress (o.flags.drop (inner.count '\n')) rest with
        | error u => simp [Construct.source, Construct.raw]
        | ok cut' => simp [append]
  | case2 flags s o hopen hclose =>
    rw [ofFlagged_of_unclosed hopen hclose] at h
    cases h
  | case3 flags s o hopen inner rest hclose u hrest ih =>
    rw [ofFlagged_of_closed hopen hclose, hrest] at h
    cases h
  | case4 flags s o hopen inner rest hclose cut' hrest ih =>
    rw [ofFlagged_of_closed hopen hclose, hrest] at h
    cases h
    subst hflags
    have happend := findOpening_append suppress hs hfront below below' t
    rw [hopen] at happend
    obtain ⟨hsource, -⟩ := Construct.source_of_splitAtPair hopen hclose (o.flags.headD false)
    rw [hsource] at hs hfront
    have hmem : 0 < rest.count '\n' := List.count_pos_iff.mpr (Construct.mem_of_endsLine _ hs)
    rw [List.count_append, Construct.count_source] at hfront
    dsimp only at hfront
    -- The construct ends above the last line of `s`, so all its flags are among `front`.
    have hflags : o.flags = flagsAfter front o.gap ++ below := by
      rw [flags_of_findOpening hopen, flagsAfter_append_flags (by omega)]
    have hbelow (flags : List Bool) :
        (flagsAfter front o.gap ++ flags).drop (inner.count '\n') =
          flagsAfter (flagsAfter front o.gap) inner ++ flags :=
      flagsAfter_append_flags (by rw [length_flagsAfter]; omega) flags
    have hlength : (flagsAfter (flagsAfter front o.gap) inner).length = rest.count '\n' := by
      rw [length_flagsAfter, length_flagsAfter]
      omega
    have hhead : (flagsAfter front o.gap ++ below').headD false = o.flags.headD false := by
      rw [hflags]
      exact headD_append_flags (by rw [length_flagsAfter]; omega) below' below
    have hnext := ih hs.of_append hlength (by rw [hflags, hbelow]) hrest
    rw [ofFlagged_of_closed happend (splitAtPair_append hclose t), hbelow, hnext, hhead]
    cases ofFlagged suppress below' t with
    | error u => simp [hsource]
    | ok cut => cases hconstructs : cut.constructs <;> simp [append, hconstructs]

/-- The tail of a source that ends its line holds the line feed at the end. -/
theorem endsLine_tail {cut : Cut} (h : EndsLine cut.source) (hne : cut.source ≠ []) :
    EndsLine cut.tail ∧ '\n' ∈ cut.tail := by
  refine ⟨h.of_append, ?_⟩
  rcases List.eq_nil_or_concat cut.constructs with hnil | ⟨constructs, c, hlast⟩
  · have hsource : cut.source = cut.tail := by
      rw [source, hnil]
      rfl
    rw [hsource] at h hne
    exact h.mem hne
  · have hsource : cut.source = constructs.flatMap Construct.source ++ (c.source ++ cut.tail) := by
      simp [source, hlast]
    rw [hsource] at h
    exact c.mem_of_endsLine h.of_append

end Cut

end DocTemplate
