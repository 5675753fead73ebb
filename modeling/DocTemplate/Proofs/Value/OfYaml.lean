import DocTemplate.Proofs.Entries
import DocTemplate.Value.OfYaml
import Mathlib.Data.Nat.Digits.Defs

/-!
# Paths through YAML trees

A path may be walked in a YAML tree itself: a tag is passed through, a mapping is entered at the
last entry whose key stands for the segment, and a sequence at the index that the segment denotes.
The value of a tree is walked alike: its part at the end of a path is the value of the tree at the
end of that path, and where the tree has no step its value has none.
-/

namespace DocTemplate

/-! ## Indices -/

namespace Text

/-- A digit behind others counts one, and these count ten times as much. -/
theorem foldl_digits (t : Text) :
    t.foldl (fun n c => 10 * n + (c.toNat - '0'.toNat)) 0 =
      Nat.ofDigits 10 (t.reverse.map fun c => c.toNat - '0'.toNat) := by
  induction t using List.reverseRecOn with
  | nil => rfl
  | append_singleton t c ih =>
    rw [List.foldl_append, ih, List.foldl_cons, List.foldl_nil, List.reverse_append,
      List.reverse_singleton, List.singleton_append, List.map_cons, Nat.ofDigits_cons, Nat.add_comm]

/-- The text denotes an index: ASCII digits, perhaps behind a plus sign, that stand for a number of
at most 64 bits. -/
def IsIndex (t : Text) (i : Nat) : Prop :=
  ∃ digits, (t = digits ∨ t = '+' :: digits) ∧ digits ≠ [] ∧ (∀ c ∈ digits, c.isDigit = true) ∧
    i = Nat.ofDigits 10 (digits.reverse.map fun c => c.toNat - '0'.toNat) ∧ i < 2 ^ 64

/-- ASCII digits, and nothing else, are read as the number that they stand for. -/
theorem toNat?_eq_some_iff {t : Text} {n : Nat} :
    toNat? t = some n ↔ t ≠ [] ∧ (∀ c ∈ t, c.isDigit = true) ∧
      n = Nat.ofDigits 10 (t.reverse.map fun c => c.toNat - '0'.toNat) := by
  rw [toNat?, Option.ite_none_right_eq_some, foldl_digits, List.all_eq_true, and_assoc,
    Option.some.injEq, eq_comm (b := n)]

end Text

open Text

namespace Value

/-- Just the texts that denote an index are read as one. -/
theorem indexOfText?_eq_some_iff {t : Text} {i : Nat} :
    indexOfText? t = some i ↔ t.IsIndex i := by
  unfold indexOfText?
  dsimp only
  rw [Option.filter_eq_some_iff, toNat?_eq_some_iff, decide_eq_true_eq]
  constructor
  · rintro ⟨⟨hne, hdigits, hi⟩, hlt⟩
    refine ⟨_, ?_, hne, hdigits, hi, hlt⟩
    split
    · exact Or.inr rfl
    · exact Or.inl rfl
  · rintro ⟨digits, rfl | rfl, hne, hdigits, hi, hlt⟩
    · have hplus : ∀ rest, t ≠ '+' :: rest := by
        rintro rest rfl
        exact absurd (hdigits '+' List.mem_cons_self) (by decide)
      split
      · exact absurd rfl (hplus _)
      · exact ⟨⟨hne, hdigits, hi⟩, hlt⟩
    · exact ⟨⟨hne, hdigits, hi⟩, hlt⟩

end Value

/-! ## Walks -/

namespace Yaml

/-- The name that a key stands for: a text for itself, a truth value or a number for its written
form. Other keys stand for nothing. -/
inductive Names : Yaml → Text → Prop
  /-- A text. -/
  | string (t : Text) : Names (.string t) t
  /-- The truth value that holds. -/
  | true : Names (.bool true) "true".toList
  /-- The truth value that does not hold. -/
  | false : Names (.bool false) "false".toList
  /-- An integer. -/
  | integer (n : Int) : Names (.number (.integer n)) (Text.ofInt n)
  /-- A number with a fraction. -/
  | float (x : Binary64) : Names (.number (.float x)) (floatStyle.write x)

/-- A key becomes just the name that it stands for. -/
theorem keyName?_eq_some_iff {key : Yaml} {name : Text} :
    key.keyName? = some name ↔ key.Names name := by
  constructor
  · intro h
    unfold keyName? at h
    split at h <;> cases h
    · exact .string _
    · exact .true
    · exact .false
    · exact .integer _
    · exact .float _
  · rintro (_ | _ | _ | _ | _) <;> rfl

/-- One step of a path from a tree to a tree in it. -/
inductive StepsTo (segment : Text) : Yaml → Yaml → Prop
  /-- A tree with a tag is entered like its content. -/
  | tagged {tag : Text} {content z : Yaml} (h : StepsTo segment content z) :
    StepsTo segment (.tagged tag content) z
  /-- A mapping is entered at the last entry whose key stands for the segment. -/
  | entry {entries : List (Yaml × Yaml)} {e : Yaml × Yaml}
      (h : IsLast (·.1.Names segment) entries e) : StepsTo segment (.mapping entries) e.2
  /-- A sequence is entered at the index that the segment denotes, if an item is there. -/
  | item {items : List Yaml} {i : Nat} {z : Yaml} (hindex : segment.IsIndex i)
      (h : items[i]? = some z) : StepsTo segment (.sequence items) z

/-- A path leads from a tree to a tree in it, step by step. -/
inductive LeadsTo : List Text → Yaml → Yaml → Prop
  /-- No step leads nowhere else. -/
  | here (y : Yaml) : LeadsTo [] y y
  /-- A step and the path behind it. -/
  | step {segment : Text} {rest : List Text} {y z w : Yaml} (h : StepsTo segment y z)
      (hrest : LeadsTo rest z w) : LeadsTo (segment :: rest) y w

/-- A step leads to one tree at most. -/
theorem StepsTo.unique {segment : Text} {y z z' : Yaml} (h : StepsTo segment y z)
    (h' : StepsTo segment y z') : z = z' := by
  induction h with
  | tagged _ ih =>
    cases h' with
    | tagged h' => exact ih h'
  | entry h =>
    cases h' with
    | entry h' => rw [h.unique h']
  | item hindex h =>
    cases h' with
    | item hindex' h' =>
      have hi := (Value.indexOfText?_eq_some_iff.mpr hindex).symm.trans
        (Value.indexOfText?_eq_some_iff.mpr hindex')
      rw [Option.some.inj hi] at h
      exact Option.some.inj (h.symm.trans h')

/-- A path leads to one tree at most. -/
theorem LeadsTo.unique {segments : List Text} {y z z' : Yaml} (h : LeadsTo segments y z)
    (h' : LeadsTo segments y z') : z = z' := by
  induction h with
  | here _ =>
    cases h' with
    | here => rfl
  | step hstep _ ih =>
    cases h' with
    | step hstep' hrest' =>
      obtain rfl := hstep.unique hstep'
      exact ih hrest'

end Yaml

/-! ## Walks in values -/

namespace Value

/-- The items of a sequence become values one by one. -/
theorem ofYamlItems_eq_map (items : List Yaml) : ofYamlItems items = items.map ofYaml := by
  induction items with
  | nil => rfl
  | cons y items ih => rw [ofYamlItems, ih, List.map_cons]

/-- Entries whose keys become names become values one by one, and the others are left out. -/
theorem ofYamlEntries_eq_filterMap (entries : List (Yaml × Yaml)) :
    ofYamlEntries entries =
      entries.filterMap fun e => e.1.keyName?.map fun name => (name, ofYaml e.2) := by
  induction entries with
  | nil => rfl
  | cons e entries ih =>
    obtain ⟨key, y⟩ := e
    rw [ofYamlEntries, List.filterMap_cons]
    cases key.keyName? with
    | none => exact ih
    | some name => exact congrArg _ ih

/-- Under a name there is the value of the last entry whose key becomes that name. -/
theorem get?_ofYamlEntries (name : Text) (entries : List (Yaml × Yaml)) :
    Entries.get? name (Entries.ofList (ofYamlEntries entries)) =
      (entries.reverse.find? fun e => e.1.keyName? = some name).map fun e => ofYaml e.2 := by
  have hkey (e : Yaml × Yaml) :
      ((e.1.keyName?.map fun n => (n, ofYaml e.2)).any fun p => decide (p.1 = name)) =
        decide (e.1.keyName? = some name) := by
    cases e.1.keyName? <;> simp
  rw [Entries.get?_ofList, ofYamlEntries_eq_filterMap, ← List.filterMap_reverse,
    List.find?_filterMap]
  simp only [hkey]
  cases hfind : entries.reverse.find? fun e => decide (e.1.keyName? = some name) with
  | none => rfl
  | some e =>
    have hname : e.1.keyName? = some name := by simpa using List.find?_some hfind
    rw [Option.bind_some, hname]
    rfl

/-- A step into the value of a tree leads to the value of what the step leads to in the tree. -/
theorem get?_ofYaml_eq_some_iff (segment : Text) (v : Value) :
    ∀ y : Yaml, (ofYaml y).get? segment = some v ↔ ∃ z, y.StepsTo segment z ∧ ofYaml z = v
  | .tagged tag content => by
    rw [ofYaml, get?_ofYaml_eq_some_iff segment v content]
    constructor
    · rintro ⟨z, hstep, hz⟩
      exact ⟨z, .tagged hstep, hz⟩
    · rintro ⟨z, hstep, hz⟩
      cases hstep with
      | tagged hstep => exact ⟨z, hstep, hz⟩
  | .mapping entries => by
    rw [ofYaml, get?, get?_ofYamlEntries, Option.map_eq_some_iff]
    simp only [find?_reverse_eq_some_iff, decide_eq_true_eq, Yaml.keyName?_eq_some_iff]
    constructor
    · rintro ⟨e, he, hv⟩
      exact ⟨e.2, .entry he, hv⟩
    · rintro ⟨z, hstep, hz⟩
      cases hstep with
      | entry he => exact ⟨_, he, hz⟩
  | .sequence items => by
    rw [ofYaml, get?, Option.bind_eq_some_iff]
    simp only [indexOfText?_eq_some_iff, ofYamlItems_eq_map, List.getElem?_map,
      Option.map_eq_some_iff]
    constructor
    · rintro ⟨i, hindex, z, hz, hv⟩
      exact ⟨z, .item hindex hz, hv⟩
    · rintro ⟨z, hstep, hv⟩
      cases hstep with
      | item hindex hz => exact ⟨_, hindex, z, hz, hv⟩
  | .number n => by
    have hnone : (ofYaml (.number n)).get? segment = none := by
      rw [ofYaml]
      cases n with
      | integer n => rw [ofNumber]; split <;> rfl
      | float x => rfl
    rw [hnone]
    constructor
    · nofun
    · rintro ⟨z, ⟨⟩, -⟩
  | .null | .bool _ | .string _ => by
    constructor
    · nofun
    · rintro ⟨z, ⟨⟩, -⟩

/-- A path into the value of a tree leads to the value of what it leads to in the tree. -/
theorem lookup_ofYaml_eq_some_iff {y : Yaml} {segments : List Text} {v : Value} :
    (ofYaml y).lookup segments = some v ↔ ∃ z, Yaml.LeadsTo segments y z ∧ ofYaml z = v := by
  induction segments generalizing y with
  | nil =>
    rw [lookup, Option.some.injEq]
    constructor
    · intro h
      exact ⟨y, .here y, h⟩
    · rintro ⟨z, hz, hv⟩
      cases hz with
      | here => exact hv
  | cons segment rest ih =>
    simp only [lookup, Option.bind_eq_some_iff, get?_ofYaml_eq_some_iff]
    constructor
    · rintro ⟨_, ⟨z, hstep, rfl⟩, hrest⟩
      obtain ⟨w, hw, hv⟩ := ih.mp hrest
      exact ⟨w, .step hstep hw, hv⟩
    · rintro ⟨w, hw, hv⟩
      cases hw with
      | step hstep hrest => exact ⟨_, ⟨_, hstep, rfl⟩, ih.mpr ⟨w, hrest, hv⟩⟩

end Value

/-- A path leads alike in a tree and in its value. -/
structure Yaml.WalksAlike (y : Yaml) (segments : List Text) : Prop where
  /-- The path leads to one tree at most. -/
  unique : ∀ z z', LeadsTo segments y z → LeadsTo segments y z' → z = z'
  /-- If it leads to a tree, it leads in the value to the value of that tree. -/
  found : ∀ z, LeadsTo segments y z → (Value.ofYaml y).lookup segments = some (Value.ofYaml z)
  /-- If it leads nowhere in the tree, it leads nowhere in the value. -/
  missing : (∀ z, ¬ LeadsTo segments y z) → (Value.ofYaml y).lookup segments = none

/-- Any path leads alike in a tree and in its value. -/
theorem Yaml.walksAlike_ofYaml (y : Yaml) (segments : List Text) : y.WalksAlike segments := by
  refine ⟨?_, ?_, ?_⟩
  · exact fun z z' hz hz' => hz.unique hz'
  · exact fun z hz => Value.lookup_ofYaml_eq_some_iff.mpr ⟨z, hz, rfl⟩
  · intro h
    rw [Option.eq_none_iff_forall_ne_some]
    intro v hv
    obtain ⟨z, hz, -⟩ := Value.lookup_ofYaml_eq_some_iff.mp hv
    exact h z hz

/-- Two keys that stand for `1` under a tag, with a sequence at the second of them. -/
def Yaml.sameNames : Yaml :=
  .tagged ['!', 't'] (.mapping [(.number (.integer 1), .null),
    (.string ['1'], .sequence [.null, .bool true]), (.null, .bool false)])

/-- A walk past an entry that is hidden, to an index with a sign and a leading zero. -/
theorem Yaml.walksAlike_ofYaml_sameNames :
    LeadsTo [['1'], ['+', '0', '1']] sameNames (.bool true) ∧
      (Value.ofYaml sameNames).lookup [['1'], ['+', '0', '1']] = some (.bool true) := by
  have hindex : Text.IsIndex ['+', '0', '1'] 1 :=
    ⟨['0', '1'], Or.inr rfl, List.cons_ne_nil _ _, List.all_eq_true.mp rfl, rfl, by decide⟩
  have hlast : IsLast (·.1.Names ['1']) [(Yaml.number (.integer 1), Yaml.null),
      (.string ['1'], .sequence [.null, .bool true]), (.null, .bool false)]
      (.string ['1'], .sequence [.null, .bool true]) := by
    refine ⟨[_], [_], rfl, .string _, ?_⟩
    rintro _ (_ | ⟨_, ⟨⟩⟩) ⟨⟩
  have hleads : LeadsTo [['1'], ['+', '0', '1']] sameNames (.bool true) :=
    .step (.tagged (.entry hlast)) (.step (.item hindex rfl) (.here (.bool true)))
  exact ⟨hleads, (walksAlike_ofYaml _ _).found _ hleads⟩

end DocTemplate
