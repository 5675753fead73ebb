import DocTemplate.Proofs.Value.OfYaml
import DocTemplate.Value.OfJson

/-!
# Values of either format

A JSON tree and a YAML tree may have the same shape: the same scalars, items in the same order, and
the same names in their objects, whatever the order of these. Then the two have the same value, and
both give the same variables or are refused alike. The exception is a document without a value,
which is refused in JSON and gives no variables in YAML.
-/

namespace DocTemplate

/-! ## Numbers -/

namespace Number

/-- A number as an integer of 64 bits with a sign, if it is one. -/
def signed? : Number → Option Int
  | integer n => if isSigned64 n then some n else none
  | float _ => none

/-- The binary64 number nearest to a number. -/
def toBinary64 : Number → Binary64
  | integer n => .ofInt n
  | float x => x

/-- Two numbers are the same integer of 64 bits with a sign or both none, and the same in
binary64. -/
structure ReadsAlike (m n : Number) : Prop where
  /-- They are the same integer, or neither is one that fits. -/
  signed : m.signed? = n.signed?
  /-- They are nearest to the same binary64 number. -/
  binary64 : m.toBinary64 = n.toBinary64

/-- A number reads like itself. -/
theorem ReadsAlike.refl (n : Number) : n.ReadsAlike n := ⟨rfl, rfl⟩

end Number

/-- The value of a number is the integer that it is, or else the nearest binary64 number. -/
theorem Value.ofNumber_eq_elim (n : Number) :
    ofNumber n = n.signed?.elim (.float n.toBinary64) .int := by
  cases n with
  | integer n =>
    rw [ofNumber, Number.signed?]
    split <;> rfl
  | float x => rfl

/-- Numbers that read alike have the same value. -/
theorem Number.ReadsAlike.ofNumber_eq {m n : Number} (h : m.ReadsAlike n) :
    Value.ofNumber m = Value.ofNumber n := by
  rw [Value.ofNumber_eq_elim, Value.ofNumber_eq_elim, h.signed, h.binary64]

/-! ## Shapes -/

namespace Json

/-- A JSON tree and a YAML tree of one shape. Of several members under one name the last ones are
compared, and the order of the names does not matter. -/
inductive SameShape : Json → Yaml → Prop
  /-- No value. -/
  | null : SameShape .null .null
  /-- The same truth value. -/
  | bool (b : Bool) : SameShape (.bool b) (.bool b)
  /-- The same number. -/
  | number {m n : Number} (h : m.ReadsAlike n) : SameShape (.number m) (.number n)
  /-- The same text. -/
  | string (t : Text) : SameShape (.string t) (.string t)
  /-- As many items, of one shape where they stand at one index. -/
  | array {js : List Json} {ys : List Yaml} (hlength : js.length = ys.length)
      (hitems : ∀ (i : Nat) (j : Json) (y : Yaml), js[i]? = some j → ys[i]? = some y →
        SameShape j y) : SameShape (.array js) (.sequence ys)
  /-- Keys that are the names, and trees of one shape under one name. -/
  | object {members : List (Text × Json)} {entries : List (Yaml × Yaml)}
      (hkeys : ∀ key, key ∈ entries.map Prod.fst ↔
        ∃ name ∈ members.map Prod.fst, key = .string name)
      (hvalues : ∀ (name : Text) (m : Text × Json) (e : Yaml × Yaml),
        IsLast (·.1 = name) members m → IsLast (·.1 = .string name) entries e →
        SameShape m.2 e.2) : SameShape (.object members) (.mapping entries)

mutual

/-- A JSON tree written in YAML. -/
def toYaml : Json → Yaml
  | .null => .null
  | .bool b => .bool b
  | .number n => .number n
  | .string t => .string t
  | .array items => .sequence (itemsToYaml items)
  | .object members => .mapping (membersToYaml members)

/-- JSON trees in order, written in YAML. -/
def itemsToYaml : List Json → List Yaml
  | [] => []
  | j :: rest => toYaml j :: itemsToYaml rest

/-- The members of an object, written in YAML under texts. -/
def membersToYaml : List (Text × Json) → List (Yaml × Yaml)
  | [] => []
  | (name, j) :: rest => (.string name, toYaml j) :: membersToYaml rest

end

/-- Items are written one by one. -/
theorem itemsToYaml_eq_map (items : List Json) : itemsToYaml items = items.map toYaml := by
  induction items with
  | nil => rfl
  | cons j items ih => rw [itemsToYaml, ih, List.map_cons]

/-- Members are written one by one. -/
theorem membersToYaml_eq_map (members : List (Text × Json)) :
    membersToYaml members = members.map fun m => (.string m.1, toYaml m.2) := by
  induction members with
  | nil => rfl
  | cons m members ih => rw [membersToYaml, ih, List.map_cons]

mutual

/-- A JSON tree has the shape of what it is in YAML. -/
theorem sameShape_toYaml (j : Json) : SameShape j j.toYaml := by
  cases j with
  | null => exact .null
  | bool b => exact .bool b
  | number n => exact .number (.refl n)
  | string t => exact .string t
  | array items =>
    rw [toYaml, itemsToYaml_eq_map]
    refine .array (List.length_map _).symm fun i j y hj hy => ?_
    rw [List.getElem?_map, hj] at hy
    obtain rfl := Option.some.inj hy
    exact sameShape_itemsToYaml items j (List.mem_of_getElem? hj)
  | object members =>
    rw [toYaml, membersToYaml_eq_map]
    refine .object (fun key => ?_) fun name m e hm he => ?_
    · simp [eq_comm]
    · have hmap := hm.map (fun m => (Yaml.string m.1, toYaml m.2))
        (q := (·.1 = .string name)) (by simp)
      obtain rfl := he.unique hmap
      exact sameShape_membersToYaml members m hm.mem

/-- Items have the shapes of what they are in YAML. -/
theorem sameShape_itemsToYaml (items : List Json) : ∀ j ∈ items, SameShape j j.toYaml := by
  cases items with
  | nil => nofun
  | cons first rest =>
    exact List.forall_mem_cons.mpr ⟨sameShape_toYaml first, sameShape_itemsToYaml rest⟩

/-- Members have the shapes of what they are in YAML. -/
theorem sameShape_membersToYaml (members : List (Text × Json)) :
    ∀ m ∈ members, SameShape m.2 m.2.toYaml := by
  cases members with
  | nil => nofun
  | cons first rest =>
    obtain ⟨name, j⟩ := first
    exact List.forall_mem_cons.mpr ⟨sameShape_toYaml j, sameShape_membersToYaml rest⟩

end

end Json

/-! ## Values -/

namespace Value

/-- The items of an array become values one by one. -/
theorem ofJsonItems_eq_map (items : List Json) : ofJsonItems items = items.map ofJson := by
  induction items with
  | nil => rfl
  | cons j items ih => rw [ofJsonItems, ih, List.map_cons]

/-- The members of an object become values one by one. -/
theorem ofJsonMembers_eq_map (members : List (Text × Json)) :
    ofJsonMembers members = members.map fun m => (m.1, ofJson m.2) := by
  induction members with
  | nil => rfl
  | cons m members ih => rw [ofJsonMembers, ih, List.map_cons]

/-- Under a name there is the value of the last member of that name. -/
theorem get?_ofJsonMembers (name : Text) (members : List (Text × Json)) :
    Entries.get? name (Entries.ofList (ofJsonMembers members)) =
      (members.reverse.find? (·.1 = name)).map fun m => ofJson m.2 := by
  rw [Entries.get?_ofList, ofJsonMembers_eq_map, ← List.map_reverse, List.find?_map, Option.map_map]
  rfl

/-- A text becomes itself, and under names no other key is one. -/
theorem isLast_keyName?_iff {names : List Text} {entries : List (Yaml × Yaml)}
    (hkeys : ∀ key, key ∈ entries.map Prod.fst ↔ ∃ name ∈ names, key = .string name) {name : Text}
    {e : Yaml × Yaml} :
    IsLast (·.1.keyName? = some name) entries e ↔ IsLast (·.1 = .string name) entries e := by
  have hname : ∀ e ∈ entries, e.1.keyName? = some name ↔ e.1 = .string name := fun e he => by
    obtain ⟨other, -, hother⟩ := (hkeys e.1).mp (List.mem_map_of_mem he)
    rw [hother, Yaml.keyName?, Option.some.injEq, Yaml.string.injEq]
  exact ⟨fun h => h.congr hname, fun h => h.congr fun e he => (hname e he).symm⟩

/-- Members and entries have the same values under the names if the last ones of one name have. -/
theorem ofList_ofJsonMembers_eq {members : List (Text × Json)} {entries : List (Yaml × Yaml)}
    (hkeys : ∀ key, key ∈ entries.map Prod.fst ↔ ∃ name ∈ members.map Prod.fst, key = .string name)
    (hvalues : ∀ (name : Text) (m : Text × Json) (e : Yaml × Yaml),
      IsLast (·.1 = name) members m → IsLast (·.1 = .string name) entries e →
      ofJson m.2 = ofYaml e.2) :
    Entries.ofList (ofJsonMembers members) = Entries.ofList (ofYamlEntries entries) := by
  refine (Entries.ascending_ofList _).ext (Entries.ascending_ofList _) fun name => ?_
  rw [get?_ofJsonMembers, get?_ofYamlEntries]
  -- A name is in the object if and only if it is a key of the mapping.
  have hboth : (∃ m, IsLast (·.1 = name) members m) ↔
      ∃ e, IsLast (·.1 = Yaml.string name) entries e := by
    rw [exists_isLast_iff, exists_isLast_iff]
    have hkey := hkeys (.string name)
    simp only [List.mem_map, Yaml.string.injEq, exists_eq_right'] at hkey
    exact hkey.symm
  ext v
  simp only [Option.map_eq_some_iff, ← isLast_iff_find?, isLast_keyName?_iff hkeys]
  constructor
  · rintro ⟨m, hm, rfl⟩
    obtain ⟨e, he⟩ := hboth.mp ⟨m, hm⟩
    exact ⟨e, he, (hvalues name m e hm he).symm⟩
  · rintro ⟨e, he, rfl⟩
    obtain ⟨m, hm⟩ := hboth.mpr ⟨e, he⟩
    exact ⟨m, hm, hvalues name m e hm he⟩

end Value

/-- Trees of one shape have the same value. -/
theorem Json.SameShape.ofJson_eq {j : Json} {y : Yaml} (h : j.SameShape y) :
    Value.ofJson j = Value.ofYaml y := by
  induction h with
  | null | bool _ | string _ => rfl
  | number h => rw [Value.ofJson, Value.ofYaml, h.ofNumber_eq]
  | @array js ys hlength _ ih =>
    rw [Value.ofJson, Value.ofYaml, Value.ofJsonItems_eq_map, Value.ofYamlItems_eq_map]
    refine congrArg Value.sequence (List.ext_getElem (by simpa using hlength) fun i hj hy => ?_)
    rw [List.getElem_map, List.getElem_map]
    exact ih i _ _ (List.getElem?_eq_getElem _) (List.getElem?_eq_getElem _)
  | object hkeys _ ih =>
    rw [Value.ofJson, Value.ofYaml, Value.ofList_ofJsonMembers_eq hkeys ih]

/-! ## Variables -/

namespace Json

/-- A JSON tree and a YAML tree give the same, apart from a document without a value. -/
structure ConvertsAlike (j : Json) (y : Yaml) : Prop where
  /-- They have the same value. -/
  value : Value.ofJson j = Value.ofYaml y
  /-- They give the same variables, or are refused with the same words. -/
  vars : j ≠ .null → Variables.ofJson j = Variables.ofYaml y
  /-- Without a value the JSON tree is refused, and the YAML tree gives no variables. -/
  null : j = .null →
    Variables.ofJson j = .error ⟨"null".toList⟩ ∧ Variables.ofYaml y = .ok .empty

/-- Trees of one shape give the same variables, apart from a document without a value. -/
theorem SameShape.ofJson_variables_eq {j : Json} {y : Yaml} (h : j.SameShape y) (hj : j ≠ .null) :
    Variables.ofJson j = Variables.ofYaml y := by
  have hy : Variables.ofYaml y = Variables.ofValue (Value.ofYaml y) := by
    cases h with
    | null => exact absurd rfl hj
    | bool _ | number _ | string _ | array _ _ | object _ _ => rfl
  rw [hy, ← h.ofJson_eq]
  rfl

/-- Every JSON tree has its shape in YAML, and a YAML tree of that shape gives the same. -/
theorem convertsAlike_of_sameShape (j : Json) :
    (∃ y, j.SameShape y) ∧ ∀ y, j.SameShape y → j.ConvertsAlike y := by
  refine ⟨⟨j.toYaml, sameShape_toYaml j⟩, fun y h => ⟨h.ofJson_eq, h.ofJson_variables_eq, ?_⟩⟩
  rintro rfl
  cases h
  exact ⟨rfl, rfl⟩

/-- An object with an array under its second name, which holds an integer beyond 64 bits with a
sign. -/
def namesInOrder : Json :=
  .object [(['a'], .bool true), (['b'], .array [.null, .number (.integer 9223372036854775808)])]

/-- A mapping of the same shape, with its keys the other way round. -/
def namesOutOfOrder : Yaml :=
  .mapping [(.string ['b'], .sequence [.null, .number (.integer 9223372036854775808)]),
    (.string ['a'], .bool true)]

/-- Names in another order, and a number that becomes a float. -/
theorem convertsAlike_of_sameShape_namesOutOfOrder :
    namesInOrder.SameShape namesOutOfOrder ∧ namesInOrder.ConvertsAlike namesOutOfOrder := by
  have hitems : SameShape (.array [.null, .number (.integer 9223372036854775808)])
      (.sequence [.null, .number (.integer 9223372036854775808)]) := by
    refine .array rfl ?_
    rintro (_ | _ | i) j y ⟨⟩ ⟨⟩
    · exact .null
    · exact .number (.refl _)
  have hshape : namesInOrder.SameShape namesOutOfOrder := by
    refine .object (fun key => by simp [or_comm]) fun name m e hm he => ?_
    obtain rfl := hm.prop
    have hname := he.prop
    rcases hm.mem with _ | ⟨_, _ | ⟨_, ⟨⟩⟩⟩ <;> rcases he.mem with _ | ⟨_, _ | ⟨_, ⟨⟩⟩⟩
    · cases hname
    · exact .bool true
    · exact hitems
    · cases hname
  exact ⟨hshape, (convertsAlike_of_sameShape namesInOrder).2 namesOutOfOrder hshape⟩

end Json

end DocTemplate
