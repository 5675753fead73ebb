import DocTemplate.Text.Basic

/-!
# Entries by name

Entries give values to names. They are kept in ascending order of the names by code point, each
name once; adding an entry under a name that is there replaces its value.
-/

namespace DocTemplate

/-- Values by name, in ascending order of the names. -/
abbrev Entries (α : Type) := List (Text × α)

namespace Entries

variable {α : Type}

/-- The value under a name. -/
def get? (name : Text) : Entries α → Option α
  | [] => none
  | (n, v) :: rest => if n = name then some v else get? name rest

/-- Puts a value under a name. -/
def insert (name : Text) (value : α) : Entries α → Entries α
  | [] => [(name, value)]
  | (n, v) :: rest =>
    if n = name then (name, value) :: rest
    else if name < n then (name, value) :: (n, v) :: rest
    else (n, v) :: insert name value rest

/-- Puts entries on top of others, in order. -/
def insertAll (entries added : Entries α) : Entries α :=
  added.foldl (fun es e => insert e.1 e.2 es) entries

/-- The entries of a list of pairs; of several under one name the last one counts. -/
def ofList (pairs : List (Text × α)) : Entries α := insertAll [] pairs

/-- A value that has just been put under a name is found there, and others stay. -/
@[simp] theorem get?_insert (name other : Text) (value : α) (es : Entries α) :
    get? other (insert name value es) = if name = other then some value else get? other es := by
  induction es with
  | nil => rfl
  | cons e es ih =>
    obtain ⟨n, v⟩ := e
    rw [insert]
    split
    · next hn => subst hn; simp only [get?]; split <;> rfl
    · next hn =>
      split
      · rfl
      · rw [get?, ih, get?]
        by_cases h : n = other
        · subst h; simp [Ne.symm hn]
        · simp [h]

/-- Entries put on top hide the others. -/
theorem get?_insertAll (name : Text) (es added : Entries α) :
    get? name (insertAll es added) = (get? name (insertAll [] added)).or (get? name es) := by
  induction added generalizing es with
  | nil => rfl
  | cons e added ih =>
    have step : ∀ fs : Entries α, insertAll fs (e :: added) = insertAll (insert e.1 e.2 fs) added :=
      fun _ => rfl
    rw [step, step, ih, ih (insert e.1 e.2 []), get?_insert, get?_insert]
    cases get? name (insertAll [] added) with
    | some _ => rfl
    | none => by_cases h : e.1 = name <;> simp [h, get?]

end Entries

end DocTemplate
