import DocTemplate.Proofs.Text.Line

/-!
# Byte offsets into a text

An offset in UTF-8 bytes that falls between two characters cuts a text in two, and a pair of such
offsets cuts a part out. Every byte belongs to one character, and an offset inside a character or
behind the end cuts nothing.
-/

namespace DocTemplate.Text

/-- A first part takes no more bytes than the whole. -/
theorem utf8Size_le_of_isPrefix {s t : Text} (h : s <+: t) : utf8Size s ≤ utf8Size t := by
  obtain ⟨more, rfl⟩ := h
  rw [utf8Size_append]
  exact Nat.le_add_right ..

/-- Every character takes at least one byte. -/
theorem utf8Size_pos_of_mem {c : Char} {t : Text} (h : c ∈ t) : 0 < utf8Size t := by
  cases t with
  | nil => simp at h
  | cons d t =>
    have := d.utf8Size_pos
    rw [utf8Size_cons]
    omega

private theorem takeBytes_cons {n : Nat} (hn : 0 < n) (c : Char) (t : Text) :
    takeBytes n (c :: t) =
      if c.utf8Size ≤ n then (takeBytes (n - c.utf8Size) t).map (c :: ·) else none := by
  obtain ⟨m, rfl⟩ := Nat.exists_eq_add_of_lt hn
  rw [Nat.zero_add, takeBytes]

private theorem dropBytes_cons {n : Nat} (hn : 0 < n) (c : Char) (t : Text) :
    dropBytes n (c :: t) = if c.utf8Size ≤ n then dropBytes (n - c.utf8Size) t else none := by
  obtain ⟨m, rfl⟩ := Nat.exists_eq_add_of_lt hn
  rw [Nat.zero_add, dropBytes]

/-- Taking the bytes of a first part gives that part. -/
theorem takeBytes_append (s t : Text) : takeBytes (utf8Size s) (s ++ t) = some s := by
  induction s with
  | nil => rw [utf8Size_nil, takeBytes]
  | cons c s ih =>
    rw [List.cons_append, takeBytes_cons (utf8Size_pos_of_mem List.mem_cons_self), utf8Size_cons,
      if_pos (Nat.le_add_right ..), Nat.add_sub_cancel_left, ih, Option.map_some]

/-- Dropping the bytes of a first part leaves the rest. -/
theorem dropBytes_append (s t : Text) : dropBytes (utf8Size s) (s ++ t) = some t := by
  induction s with
  | nil => rw [utf8Size_nil, dropBytes, List.nil_append]
  | cons c s ih =>
    rw [List.cons_append, dropBytes_cons (utf8Size_pos_of_mem List.mem_cons_self), utf8Size_cons,
      if_pos (Nat.le_add_right ..), Nat.add_sub_cancel_left, ih]

/-- The part between the offsets of its two ends. -/
theorem slice_append (front part back : Text) :
    slice (utf8Size front) (utf8Size front + utf8Size part) (front ++ part ++ back) =
      some part := by
  rw [slice, ← utf8Size_append, takeBytes_append, Option.bind_some, dropBytes_append]

/-- An offset between two characters, or at one of the two ends. -/
def IsBoundary (t : Text) (offset : Nat) : Prop :=
  ∃ front back, t = front ++ back ∧ utf8Size front = offset

theorem isBoundary_append (front back : Text) : (front ++ back).IsBoundary (utf8Size front) :=
  ⟨front, back, rfl, rfl⟩

/-- What is taken is a first part of as many bytes. -/
theorem isPrefix_of_takeBytes {n : Nat} {s t : Text} (h : takeBytes n t = some s) :
    s <+: t ∧ utf8Size s = n := by
  induction t generalizing n s with
  | nil =>
    cases n with
    | zero =>
      rw [takeBytes, Option.some.injEq] at h
      subst h
      exact ⟨List.prefix_rfl, rfl⟩
    | succ n => cases h
  | cons c t ih =>
    cases n with
    | zero =>
      rw [takeBytes, Option.some.injEq] at h
      subst h
      exact ⟨List.nil_prefix, rfl⟩
    | succ n =>
      rw [takeBytes] at h
      split at h
      · rename_i hc
        obtain ⟨s', htake, rfl⟩ := Option.map_eq_some_iff.mp h
        obtain ⟨hrest, hsize⟩ := ih htake
        refine ⟨(List.prefix_cons_inj c).mpr hrest, ?_⟩
        rw [utf8Size_cons]
        omega
      · cases h

/-- Up to an offset that is not between characters nothing can be taken. -/
theorem slice_eq_none {offset : Nat} {t : Text} (h : ¬ t.IsBoundary offset) (first : Nat) :
    slice first offset t = none := by
  have htake : takeBytes offset t = none := by
    by_contra hsome
    obtain ⟨s, hs⟩ := Option.ne_none_iff_exists'.mp hsome
    obtain ⟨⟨back, rfl⟩, rfl⟩ := isPrefix_of_takeBytes hs
    exact h (isBoundary_append s back)
  rw [slice, htake, Option.bind_none]

/-- No offset behind the end is between characters. -/
theorem not_isBoundary_of_lt {offset : Nat} {t : Text} (h : utf8Size t < offset) :
    ¬ t.IsBoundary offset := by
  rintro ⟨front, back, rfl, rfl⟩
  have := utf8Size_le_of_isPrefix (List.prefix_append front back)
  omega

/-- No offset inside a character is between characters. -/
theorem not_isBoundary_of_inside {offset : Nat} {front back : Text} {c : Char}
    (hfirst : utf8Size front < offset) (hlast : offset < utf8Size front + c.utf8Size) :
    ¬ (front ++ c :: back).IsBoundary offset := by
  rintro ⟨front', back', hwhole, rfl⟩
  have hfront : front <+: front ++ c :: back := List.prefix_append ..
  have hthrough : front ++ [c] <+: front ++ c :: back := ⟨back, by simp⟩
  have hfront' : front' <+: front ++ c :: back := ⟨back', hwhole.symm⟩
  rcases Nat.lt_or_ge front.length front'.length with hlength | hlength
  · have := utf8Size_le_of_isPrefix (List.prefix_of_prefix_length_le hthrough hfront' (by simpa))
    rw [utf8Size_append, utf8Size_cons, utf8Size_nil] at this
    omega
  · have := utf8Size_le_of_isPrefix (List.prefix_of_prefix_length_le hfront' hfront hlength)
    omega

/-- The byte at an offset behind `front` is a byte of one character of what follows. -/
theorem exists_char_at {front part : Text} {offset : Nat} (hfirst : utf8Size front ≤ offset)
    (hlast : offset < utf8Size front + utf8Size part) :
    ∃ pre c post, part = pre ++ c :: post ∧ utf8Size (front ++ pre) ≤ offset ∧
      offset < utf8Size (front ++ pre) + c.utf8Size := by
  induction part generalizing front with
  | nil => rw [utf8Size_nil] at hlast; omega
  | cons d part ih =>
    by_cases hd : offset < utf8Size front + d.utf8Size
    · exact ⟨[], d, part, rfl, by simpa using hfirst, by simpa using hd⟩
    · have hfront : utf8Size (front ++ [d]) = utf8Size front + d.utf8Size := by simp
      have hbehind : utf8Size (front ++ [d]) ≤ offset := by omega
      rw [utf8Size_cons] at hlast
      obtain ⟨pre, c, post, rfl, hpre, hc⟩ := ih hbehind (by rw [hfront]; omega)
      exact ⟨d :: pre, c, post, rfl, by simpa using hpre, by simpa using hc⟩

end DocTemplate.Text
