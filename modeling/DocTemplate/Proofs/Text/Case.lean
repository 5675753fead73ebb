import DocTemplate.Proofs.Text.Crlf
import DocTemplate.Text.Case

/-!
# What a change of case leaves of line ends

A change of case puts a text in the place of every character. The two characters of a line end stand
for themselves, and no other character becomes a line feed: the tables of the mappings hold no
character as low as these, and map to none.
-/

namespace DocTemplate.Text

/-- What a character may become: itself, or a text without line feeds if it belongs to no line
end. -/
def IsRecasing (c : Char) (piece : Text) : Prop :=
  piece = [c] ∨ (c ≠ '\n' ∧ c ≠ '\r' ∧ '\n' ∉ piece)

/-- A text with something in the place of each of its characters. -/
inductive Recased : Text → Text → Prop
  /-- There is no character. -/
  | nil : Recased [] []
  /-- The first character becomes a piece, and the others become the rest. -/
  | cons {c : Char} {piece t t' : Text} (hc : IsRecasing c piece) (h : Recased t t') :
    Recased (c :: t) (piece ++ t')

/-- A text may stay as it is. -/
theorem Recased.refl (t : Text) : Recased t t := by
  induction t with
  | nil => exact .nil
  | cons c t ih => exact .cons (Or.inl rfl) ih

/-- Line ends stay whole. In front of the text, `s` is what the characters so far have become
`s'`. -/
private theorem isCrlf_append_of_recased {s s' t t' : Text} (h : Recased t t')
    (hwhole : IsCrlf (s ++ t)) (hs' : IsCrlf s')
    (hreturn : s.getLast? = some '\r' → s'.getLast? = some '\r') : IsCrlf (s' ++ t') := by
  induction h generalizing s s' with
  | nil => rwa [List.append_nil]
  | @cons c piece t t' hc h ih =>
    have hlast : (s ++ [c]).getLast? = some c := by simp
    have hnext : IsCrlf ((s ++ [c]) ++ t) := by simpa using hwhole
    rw [← List.append_assoc]
    rcases hc with rfl | ⟨-, hne, hpiece⟩
    · have hc := (isCrlf_concat_iff.mp hnext.of_append).2
      refine ih hnext (isCrlf_concat_iff.mpr ⟨hs', fun heq => hreturn (hc heq)⟩) fun heq => ?_
      simpa [hlast] using heq
    · refine ih hnext (hs'.append (isCrlf_of_not_mem hpiece)) fun heq => ?_
      rw [hlast, Option.some.injEq] at heq
      exact absurd heq hne

/-- Line ends stay whole where characters become others. -/
theorem IsCrlf.of_recased {t t' : Text} (h : IsCrlf t) (hrecased : Recased t t') : IsCrlf t' := by
  have hwhole : IsCrlf ([] ++ t) := h
  have hbecome : IsCrlf ([] ++ t') :=
    isCrlf_append_of_recased hrecased hwhole isCrlf_nil nofun
  exact hbecome

/-! ## Mappings -/

private theorem ofNat_ne_lineFeed {n : Nat} (h : 13 < n) : Char.ofNat n ≠ '\n' := by
  intro heq
  by_cases hvalid : n.isValidChar
  · have hchar : Char.ofNat n = Char.ofNatAux n hvalid := dif_pos hvalid
    have hn : n = 10 := congrArg Char.toNat (hchar.symm.trans heq)
    omega
  · have hchar : Char.ofNat n = Char.ofNat 0 := dif_neg hvalid
    rw [hchar] at heq
    exact absurd heq (by decide)

/-- A character is recased by a mapping whose tables hold and give only characters above the
carriage return. -/
theorem isRecasing_mapCase {expansions : List (Nat × List Nat)} {runs : List CaseRun}
    (hexpansions : ∀ e ∈ expansions, 13 < e.1 ∧ ∀ n ∈ e.2, 13 < n)
    (hruns : ∀ r ∈ runs, 13 < r.first ∧ 13 < (r.first : Int) + r.shift) (c : Char) :
    IsRecasing c (mapCase expansions runs c) := by
  have hhigh (h : 13 < c.toNat) : c ≠ '\n' ∧ c ≠ '\r' := by
    constructor <;> (rintro rfl; exact absurd h (by decide))
  unfold mapCase
  cases hlookup : expansions.lookup c.toNat with
  | some ns =>
    obtain ⟨front, back, hexpansion, -⟩ := List.lookup_eq_some_iff.mp hlookup
    obtain ⟨hfirst, hns⟩ := hexpansions (c.toNat, ns) (by simp [hexpansion])
    refine Or.inr ⟨(hhigh hfirst).1, (hhigh hfirst).2, ?_⟩
    intro hmem
    obtain ⟨n, hn, heq⟩ := List.mem_map.mp hmem
    exact ofNat_ne_lineFeed (hns n hn) heq
  | none =>
    unfold shiftBy
    dsimp only
    cases hfind : runs.find? fun r =>
        r.first ≤ c.toNat && c.toNat ≤ r.last && (c.toNat - r.first) % r.step == 0 with
    | none => exact Or.inl rfl
    | some r =>
      obtain ⟨hfirst, hshift⟩ := hruns r (List.mem_of_find?_eq_some hfind)
      have hinside := List.find?_some hfind
      simp only [Bool.and_eq_true, decide_eq_true_eq] at hinside
      have hlow : r.first ≤ c.toNat := hinside.1.1
      have hc := hhigh (by omega)
      refine Or.inr ⟨hc.1, hc.2, ?_⟩
      rw [List.mem_singleton]
      exact (ofNat_ne_lineFeed (by omega)).symm

/-- The upper case of a character is a recasing of it. -/
theorem isRecasing_upperChar (c : Char) : IsRecasing c (upperChar c) :=
  isRecasing_mapCase (by decide +kernel) (by decide +kernel) c

/-- The lower case of a character is a recasing of it. -/
theorem isRecasing_lowerChar (c : Char) : IsRecasing c (lowerChar c) :=
  isRecasing_mapCase (by decide +kernel) (by decide +kernel) c

/-! ## Texts -/

/-- The upper case of a text is a recasing of it. -/
theorem recased_upper (t : Text) : Recased t (upper t) := by
  induction t with
  | nil => exact .nil
  | cons c t ih => exact .cons (isRecasing_upperChar c) ih

/-- The lower case of a text is a recasing of it, whatever becomes of a sigma. -/
theorem recased_lower (t : Text) : Recased t (lower t) := by
  unfold lower
  generalize ([] : Text) = before
  induction t generalizing before with
  | nil => exact .nil
  | cons c t ih =>
    rw [lowerBehind]
    refine .cons ?_ (ih (c :: before))
    split
    · rename_i hsigma
      subst hsigma
      refine Or.inr ⟨by decide, by decide, ?_⟩
      split <;> decide
    · exact isRecasing_lowerChar c

/-- A text whose first character is put into upper case is recased. -/
theorem recased_capitalize (t : Text) : Recased t (capitalize t) := by
  cases t with
  | nil => exact .nil
  | cons c t => exact .cons (isRecasing_upperChar c) (.refl t)

/-- A text is recased if the first character of each word is put into upper case. -/
theorem recased_titleCase (t : Text) : Recased t (titleCase t) := by
  unfold titleCase
  generalize true = atStart
  induction t generalizing atStart with
  | nil => exact .nil
  | cons c t ih =>
    rw [titleFrom]
    split
    · have hc : IsRecasing c [c] := Or.inl rfl
      exact .cons hc (ih true)
    · refine .cons ?_ (ih false)
      split
      · exact isRecasing_upperChar c
      · exact Or.inl rfl

end DocTemplate.Text
