import DocTemplate.Value

/-!
# Parts and texts of values

A path leads from a value to a part of it: an item of a sequence or a value of a mapping, at any
depth. The texts that are made of values other than strings are words and numbers, so there is no
line feed in them.
-/

namespace DocTemplate

/-- An entry that is found is one of the entries. -/
theorem Entries.mem_of_get? {α : Type} {name : Text} {entries : Entries α} {value : α}
    (h : get? name entries = some value) : (name, value) ∈ entries := by
  induction entries with
  | nil => cases h
  | cons e entries ih =>
    obtain ⟨n, v⟩ := e
    rw [get?] at h
    split at h
    · rename_i hn
      cases h
      subst hn
      exact List.mem_cons_self
    · exact List.mem_cons_of_mem _ (ih h)

namespace Value

/-- A value is a part of another one: that value itself, or a part of something in it. -/
inductive IsPartOf (part : Value) : Value → Prop
  /-- Every value is a part of itself. -/
  | self : IsPartOf part part
  /-- The parts of the items of a sequence are its parts. -/
  | item {items : List Value} {v : Value} (hv : v ∈ items) (h : IsPartOf part v) :
    IsPartOf part (.sequence items)
  /-- The parts of the values of a mapping are its parts. -/
  | entry {entries : List (Text × Value)} {name : Text} {v : Value} (hv : (name, v) ∈ entries)
    (h : IsPartOf part v) : IsPartOf part (.mapping entries)

/-- Parts of parts are parts. -/
theorem IsPartOf.trans {u v w : Value} (huv : u.IsPartOf v) (hvw : v.IsPartOf w) :
    u.IsPartOf w := by
  induction hvw with
  | self => exact huv
  | item hmem _ ih => exact .item hmem ih
  | entry hmem _ ih => exact .entry hmem ih

/-- A step leads to a part. -/
theorem isPartOf_of_get? {segment : Text} {v w : Value} (h : v.get? segment = some w) :
    w.IsPartOf v := by
  cases v with
  | mapping entries => exact .entry (Entries.mem_of_get? h) .self
  | sequence items =>
    obtain ⟨i, -, hi⟩ := Option.bind_eq_some_iff.mp h
    exact .item (List.mem_of_getElem? hi) .self
  | null | bool b | int n | float x | string t => cases h

/-- Steps lead to a part. -/
theorem isPartOf_of_lookup {segments : List Text} {v w : Value}
    (h : v.lookup segments = some w) : w.IsPartOf v := by
  induction segments generalizing v with
  | nil =>
    cases h
    exact .self
  | cons segment rest ih =>
    obtain ⟨u, hstep, hrest⟩ := Option.bind_eq_some_iff.mp h
    exact (ih hrest).trans (isPartOf_of_get? hstep)

end Value

/-! ## Numbers -/

/-- A natural number is written in digits. -/
theorem Text.not_mem_ofNat {c : Char} (hc : c.isDigit = false) (n : Nat) : c ∉ Text.ofNat n := by
  intro hmem
  have hdigit := Nat.isDigit_of_mem_toDigits (by decide) (by decide) hmem
  rw [hc] at hdigit
  cases hdigit

/-- An integer is written in digits behind a minus sign or none. -/
theorem Text.not_mem_ofInt {c : Char} (hc : c.isDigit = false) (hsign : c ≠ '-') (n : Int) :
    c ∉ Text.ofInt n := by
  unfold Text.ofInt
  split
  · rw [List.mem_cons, not_or]
    exact ⟨hsign, Text.not_mem_ofNat hc _⟩
  · exact Text.not_mem_ofNat hc _

/-- The shortest digits of a number are digits. -/
theorem Binary64.not_mem_shortest {c : Char} (hc : c.isDigit = false) (x : Binary64) (tie : Tie) :
    c ∉ (x.shortest tie).digits := by
  intro hmem
  have hwritten := (List.dropWhile_suffix _).subset (List.mem_reverse.mp hmem)
  exact Text.not_mem_ofNat hc _ (List.mem_reverse.mp hwritten)

/-- Without a power of ten a number is written in digits and a point. -/
theorem DecimalStyle.not_mem_writePositional {c : Char} (hc : c.isDigit = false) (hpoint : c ≠ '.')
    (s : DecimalStyle) {d : Binary64.Digits} (hd : c ∉ d.digits) : c ∉ s.writePositional d := by
  have hzero : c ≠ '0' := by
    rintro rfl
    exact absurd hc (by decide)
  have hzeros (n : Nat) : c ∉ List.replicate n '0' := fun hmem =>
    hzero (List.eq_of_mem_replicate hmem)
  unfold writePositional
  dsimp only
  split
  · simp [hzero, hpoint, hzeros, hd]
  · split
    · split <;> simp [hzero, hpoint, hzeros, hd]
    · have htake (n : Nat) : c ∉ d.digits.take n := fun hmem => hd (List.mem_of_mem_take hmem)
      have hdrop (n : Nat) : c ∉ d.digits.drop n := fun hmem => hd (List.mem_of_mem_drop hmem)
      simp [hpoint, htake, hdrop]

/-- The text of a number with a fraction holds no line feed. -/
theorem Value.not_mem_write (x : Binary64) : '\n' ∉ floatStyle.write x := by
  have hdigits := Binary64.not_mem_shortest (c := '\n') (by decide) x floatStyle.tie
  have hpositional := floatStyle.not_mem_writePositional (c := '\n') (by decide) (by decide) hdigits
  have hsign : '\n' ∉ (if x.isNegative then ['-'] else []) := by split <;> decide
  unfold DecimalStyle.write
  split
  · decide
  · dsimp only
    split
    · simp [hsign, floatStyle]
    · split
      · simp [hsign, floatStyle]
      · have hwhole : floatStyle.positional (x.shortest floatStyle.tie).point = true := rfl
        rw [hwhole, if_pos rfl, List.mem_append, not_or]
        exact ⟨hsign, hpositional⟩

/-- The text of a value is the value itself or holds no line feed. -/
theorem Value.not_mem_toText {v : Value} (hv : ∀ t, v ≠ .string t) : '\n' ∉ v.toText := by
  cases v with
  | null => exact List.not_mem_nil
  | bool b => cases b <;> decide
  | int n => exact Text.not_mem_ofInt (by decide) (by decide) n
  | float x => exact Value.not_mem_write x
  | string t => exact absurd rfl (hv t)
  | sequence items => exact List.not_mem_nil
  | mapping entries => exact List.not_mem_nil

end DocTemplate
