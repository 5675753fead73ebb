import DocTemplate.Entries
import Mathlib.Data.Char
import Mathlib.Data.List.Induction
import Mathlib.Data.List.Lex

/-!
# Entries in order

Entries that are put one by one stand in ascending order of their names, each name once. A name has
the value that was put under it last, and entries in order are told by the values of the names. So
entries may be put on top of others at once or one after the other.
-/

namespace DocTemplate

/-! ## The last of several -/

section Last

variable {α : Type}

/-- The last element of a list with a property. -/
def IsLast (p : α → Prop) (xs : List α) (x : α) : Prop :=
  ∃ front back, xs = front ++ x :: back ∧ p x ∧ ∀ y ∈ back, ¬ p y

/-- A search from the end finds the last element. -/
theorem find?_reverse_eq_some_iff {p : α → Bool} {xs : List α} {x : α} :
    xs.reverse.find? p = some x ↔ IsLast (p · = true) xs x := by
  rw [List.find?_eq_some_iff_append]
  constructor
  · rintro ⟨hx, back, front, hxs, hback⟩
    refine ⟨front.reverse, back.reverse, ?_, hx, fun y hy => ?_⟩
    · rw [← List.reverse_reverse xs, hxs, List.reverse_append, List.reverse_cons, List.append_assoc,
        List.singleton_append]
    · simpa using hback y (List.mem_reverse.mp hy)
  · rintro ⟨front, back, rfl, hx, hback⟩
    refine ⟨hx, back.reverse, front.reverse, ?_, fun y hy => ?_⟩
    · rw [List.reverse_append, List.reverse_cons, List.append_assoc, List.singleton_append]
    · simpa using hback y (List.mem_reverse.mp hy)

/-- A last element is found by a search from the end for the property. -/
theorem isLast_iff_find? {p : α → Prop} [DecidablePred p] {xs : List α} {x : α} :
    IsLast p xs x ↔ xs.reverse.find? (fun y => decide (p y)) = some x := by
  rw [find?_reverse_eq_some_iff]
  simp only [decide_eq_true_eq]

/-- There is one last element at most. -/
theorem IsLast.unique {p : α → Prop} {xs : List α} {x y : α} (hx : IsLast p xs x)
    (hy : IsLast p xs y) : x = y := by
  classical
  exact Option.some.inj ((isLast_iff_find?.mp hx).symm.trans (isLast_iff_find?.mp hy))

/-- A last element is an element. -/
theorem IsLast.mem {p : α → Prop} {xs : List α} {x : α} (h : IsLast p xs x) : x ∈ xs := by
  obtain ⟨front, back, rfl, -, -⟩ := h
  exact List.mem_append_right _ List.mem_cons_self

/-- A last element has the property. -/
theorem IsLast.prop {p : α → Prop} {xs : List α} {x : α} (h : IsLast p xs x) : p x := by
  obtain ⟨-, -, -, hx, -⟩ := h
  exact hx

/-- The last element is the same for a property that agrees on the list. -/
theorem IsLast.congr {p q : α → Prop} {xs : List α} {x : α} (h : IsLast p xs x)
    (hpq : ∀ y ∈ xs, p y ↔ q y) : IsLast q xs x := by
  obtain ⟨front, back, rfl, hx, hback⟩ := h
  obtain ⟨-, hpq⟩ := List.forall_mem_append.mp hpq
  obtain ⟨hpqx, hpq⟩ := List.forall_mem_cons.mp hpq
  exact ⟨front, back, rfl, hpqx.mp hx, fun y hy hq => hback y hy ((hpq y hy).mpr hq)⟩

/-- The last element is mapped to the last one. -/
theorem IsLast.map {β : Type} {p : α → Prop} {q : β → Prop} {xs : List α} {x : α}
    (h : IsLast p xs x) (f : α → β) (hpq : ∀ y, q (f y) ↔ p y) : IsLast q (xs.map f) (f x) := by
  obtain ⟨front, back, rfl, hx, hback⟩ := h
  refine ⟨front.map f, back.map f, by simp, (hpq x).mpr hx, ?_⟩
  exact List.forall_mem_map.mpr fun y hy hq => hback y hy ((hpq y).mp hq)

/-- The last of the elements is at the end, or in front of an end that is none of them. -/
theorem isLast_concat_iff {p : α → Prop} {xs : List α} {x y : α} :
    IsLast p (xs ++ [y]) x ↔ p y ∧ x = y ∨ ¬ p y ∧ IsLast p xs x := by
  constructor
  · rintro ⟨front, back, h, hx, hback⟩
    rcases List.eq_nil_or_concat' back with rfl | ⟨back, z, rfl⟩
    · obtain ⟨-, hxy⟩ := List.append_inj' h rfl
      obtain rfl := List.singleton_inj.mp hxy
      exact Or.inl ⟨hx, rfl⟩
    · rw [← List.cons_append, ← List.append_assoc] at h
      obtain ⟨rfl, hyz⟩ := List.append_inj' h rfl
      obtain rfl := List.singleton_inj.mp hyz
      obtain ⟨hback, hy⟩ := List.forall_mem_append.mp hback
      exact Or.inr ⟨hy y List.mem_cons_self, front, back, rfl, hx, hback⟩
  · rintro (⟨hy, rfl⟩ | ⟨hy, front, back, rfl, hx, hback⟩)
    · exact ⟨xs, [], rfl, hy, by simp⟩
    · refine ⟨front, back ++ [y], by simp, hx, ?_⟩
      exact List.forall_mem_append.mpr ⟨hback, List.forall_mem_singleton.mpr hy⟩

/-- Some element is the last one exactly if there is any. -/
theorem exists_isLast_iff {p : α → Prop} {xs : List α} :
    (∃ x, IsLast p xs x) ↔ ∃ x ∈ xs, p x := by
  classical
  simp only [isLast_iff_find?, ← Option.isSome_iff_exists, List.find?_isSome, List.mem_reverse,
    decide_eq_true_eq]

end Last

namespace Entries

variable {α : Type}

/-! ## Order -/

/-- The names of the entries ascend, so none of them is there twice. -/
def Ascending (es : Entries α) : Prop := (es.map Prod.fst).Pairwise (· < ·)

/-- The names of entries are those before and the one that has been put. -/
theorem mem_map_fst_insert {name other : Text} {value : α} {es : Entries α} :
    other ∈ (insert name value es).map Prod.fst ↔ other = name ∨ other ∈ es.map Prod.fst := by
  induction es with
  | nil => simp [insert]
  | cons e es ih =>
    obtain ⟨n, v⟩ := e
    rw [insert]
    split
    · rename_i hn
      simp [hn]
    · split
      · simp
      · simp only [List.map_cons, List.mem_cons, ih]
        exact or_left_comm

/-- Putting a value keeps the order. -/
theorem Ascending.insert {es : Entries α} (h : es.Ascending) (name : Text) (value : α) :
    (insert name value es).Ascending := by
  induction es with
  | nil => exact List.pairwise_singleton _ _
  | cons e es ih =>
    obtain ⟨n, v⟩ := e
    obtain ⟨hfirst, hrest⟩ := List.pairwise_cons.mp h
    rw [Entries.insert]
    split
    · rename_i hn
      exact hn ▸ h
    · rename_i hn
      split
      · rename_i hlt
        refine List.pairwise_cons.mpr ⟨fun other hother => ?_, h⟩
        rcases List.mem_cons.mp hother with rfl | hother
        · exact hlt
        · exact hlt.trans (hfirst other hother)
      · rename_i hlt
        have hgt : n < name := lt_of_le_of_ne (not_lt.mp hlt) hn
        refine List.pairwise_cons.mpr ⟨fun other hother => ?_, ih hrest⟩
        rcases mem_map_fst_insert.mp hother with rfl | hother
        · exact hgt
        · exact hfirst other hother

/-- Putting entries keeps the order. -/
theorem Ascending.insertAll {es : Entries α} (h : es.Ascending) (added : List (Text × α)) :
    (insertAll es added).Ascending := by
  induction added generalizing es with
  | nil => exact h
  | cons e added ih => exact ih (h.insert e.1 e.2)

/-- No entries are in order. -/
theorem ascending_nil : Ascending ([] : Entries α) := List.Pairwise.nil

/-- The entries of a list are in order. -/
theorem ascending_ofList (pairs : List (Text × α)) : (ofList pairs).Ascending :=
  ascending_nil.insertAll pairs

/-! ## Values -/

/-- A pair behind others is put last. -/
theorem ofList_concat (pairs : List (Text × α)) (e : Text × α) :
    ofList (pairs ++ [e]) = insert e.1 e.2 (ofList pairs) := List.foldl_append

/-- The value of a name is found by a search from the end. -/
theorem get?_ofList (name : Text) (pairs : List (Text × α)) :
    get? name (ofList pairs) = (pairs.reverse.find? (·.1 = name)).map Prod.snd := by
  induction pairs using List.reverseRecOn with
  | nil => rfl
  | append_singleton pairs e ih =>
    rw [ofList_concat, get?_insert, ih, List.reverse_append, List.reverse_singleton,
      List.singleton_append, List.find?_cons]
    by_cases h : e.1 = name <;> simp [h]

/-- The names of the entries of a list are the names there. -/
theorem mem_map_fst_ofList {name : Text} {pairs : List (Text × α)} :
    name ∈ (ofList pairs).map Prod.fst ↔ name ∈ pairs.map Prod.fst := by
  induction pairs using List.reverseRecOn with
  | nil => rfl
  | append_singleton pairs e ih =>
    rw [ofList_concat, mem_map_fst_insert, ih, List.map_append, List.mem_append, List.map_singleton,
      List.mem_singleton, or_comm]

/-- A name has the value that stands behind it, and no other. -/
theorem Ascending.get?_eq_some_iff {es : Entries α} (h : es.Ascending) {name : Text} {value : α} :
    get? name es = some value ↔ (name, value) ∈ es := by
  induction es with
  | nil => simp [get?]
  | cons e es ih =>
    obtain ⟨n, v⟩ := e
    obtain ⟨hfirst, hrest⟩ := List.pairwise_cons.mp h
    rw [get?, List.mem_cons]
    split
    · rename_i hn
      subst hn
      have hnot : (n, value) ∉ es := fun hmem =>
        lt_irrefl n (hfirst n (List.mem_map_of_mem (f := Prod.fst) hmem))
      simp [hnot, eq_comm]
    · rename_i hn
      rw [ih hrest]
      simp [Ne.symm hn]

/-- Entries in order are told by the values of the names. -/
theorem Ascending.ext {es fs : Entries α} (hes : es.Ascending) (hfs : fs.Ascending)
    (h : ∀ name, get? name es = get? name fs) : es = fs := by
  have hmem : ∀ e : Text × α, e ∈ es ↔ e ∈ fs := fun e => by
    rw [← hes.get?_eq_some_iff, ← hfs.get?_eq_some_iff, h]
  have hpairs {gs : Entries α} (hgs : gs.Ascending) : gs.Pairwise fun e f => e.1 < f.1 :=
    List.pairwise_map.mp hgs
  have hnodup {gs : Entries α} (hgs : gs.Ascending) : gs.Nodup :=
    (hpairs hgs).imp fun hlt => ne_of_apply_ne Prod.fst (ne_of_lt hlt)
  exact ((List.perm_ext_iff_of_nodup (hnodup hes) (hnodup hfs)).mpr hmem).eq_of_pairwise
    (fun e f _ _ hlt hgt => absurd hgt (lt_asymm hlt)) (hpairs hes) (hpairs hfs)

/-! ## Entries on top of others -/

/-- A value whose name is behind all others is put at the end. -/
theorem insert_of_forall_lt {name : Text} (value : α) {es : Entries α}
    (h : ∀ n ∈ es.map Prod.fst, n < name) : insert name value es = es ++ [(name, value)] := by
  induction es with
  | nil => rfl
  | cons e es ih =>
    obtain ⟨n, v⟩ := e
    obtain ⟨hn, hrest⟩ := List.forall_mem_cons.mp h
    rw [insert, if_neg (ne_of_lt hn), if_neg (lt_asymm hn), ih hrest, List.cons_append]

/-- Entries in order stay what they are if they are put one by one. -/
theorem Ascending.ofList_eq {es : Entries α} (h : es.Ascending) : ofList es = es := by
  induction es using List.reverseRecOn with
  | nil => rfl
  | append_singleton es e ih =>
    rw [Ascending, List.map_append, List.pairwise_append] at h
    obtain ⟨hes, -, hlast⟩ := h
    rw [ofList_concat, ih hes, insert_of_forall_lt]
    exact fun n hn => hlast n hn _ (List.mem_singleton.mpr rfl)

/-- A name has the value that is put on top, or else the one below. -/
theorem Ascending.get?_insertAll {added : Entries α} (h : added.Ascending) (es : Entries α)
    (name : Text) :
    get? name (Entries.insertAll es added) = (get? name added).or (get? name es) := by
  rw [Entries.get?_insertAll, ← ofList, h.ofList_eq]

/-- Entries that are put on top of others one after the other may first be put together. -/
theorem insertAll_assoc {es fs gs : Entries α} (hes : es.Ascending) (hfs : fs.Ascending)
    (hgs : gs.Ascending) : insertAll (insertAll es fs) gs = insertAll es (insertAll fs gs) := by
  refine ((hes.insertAll fs).insertAll gs).ext (hes.insertAll _) fun name => ?_
  rw [hgs.get?_insertAll, hfs.get?_insertAll, (hfs.insertAll gs).get?_insertAll,
    hgs.get?_insertAll, Option.or_assoc]

end Entries

end DocTemplate
