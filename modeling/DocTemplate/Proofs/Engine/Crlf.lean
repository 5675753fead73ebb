import DocTemplate.Engine
import DocTemplate.Proofs.Node.Scope
import DocTemplate.Proofs.Node.Texts
import DocTemplate.Proofs.Text.Case
import DocTemplate.Proofs.Value

/-!
# Documents keep their line ends

A document in which every line feed follows a carriage return, shown with values of the same kind,
comes out as one. What is shown is put together from texts of the tree, from values behind filters
and from what joining leaves of iterations, and each of these keeps its line ends whole; so wherever
pieces meet no line feed is left without its carriage return.
-/

namespace DocTemplate

open Text

/-! ## Joining -/

/-- The blank lines at the end of a text are cut off behind a line feed or a visible character. -/
theorem isCrlf_dropTrailingBlankLines {t : Text} (h : IsCrlf t) :
    IsCrlf (dropTrailingBlankLines t) := by
  unfold dropTrailingBlankLines
  split
  · exact isCrlf_nil
  · exact h.trimEnd.append h.trailingBlanks.throughLineFeed

/-- All three parts of a visible text keep their line ends whole. -/
structure Edged.IsCrlf (e : Edged) : Prop where
  /-- The blanks in front. -/
  lead : Text.IsCrlf e.lead
  /-- What is between the blanks. -/
  content : Text.IsCrlf e.content
  /-- The blanks behind. -/
  trail : Text.IsCrlf e.trail

/-- Taking the blanks off leaves line ends whole. -/
theorem Edged.isCrlf_of_ofText? {t : Text} {e : Edged} (h : Edged.ofText? t = some e)
    (ht : Text.IsCrlf t) : e.IsCrlf := by
  unfold Edged.ofText? at h
  split at h
  · cases h
  · cases h
    exact ⟨ht.leadingBlanks, ht.trim, ht.trailingBlanks⟩

private theorem isCrlf_edgeGap {run : Text} (h : IsCrlf run) : IsCrlf (edgeGap run) := by
  unfold edgeGap
  split
  · exact h
  · exact isCrlf_nil

/-- Whichever of two runs of blanks is the wider one, it is one of them as it is. -/
private theorem isCrlf_widerGap {before after : Text} (hbefore : IsCrlf before)
    (hafter : IsCrlf after) : IsCrlf (widerGap before after) := by
  unfold widerGap
  split
  · exact hbefore
  · split
    · exact hafter
    · split
      · exact hafter
      · exact hbefore

private theorem isCrlf_joinBehind {before : Text} {pieces : List Edged} (hbefore : IsCrlf before)
    (h : ∀ e ∈ pieces, e.IsCrlf) : IsCrlf (joinBehind before pieces) := by
  induction pieces generalizing before with
  | nil => exact isCrlf_edgeGap hbefore
  | cons e pieces ih =>
    obtain ⟨he, hpieces⟩ := List.forall_mem_cons.mp h
    have hgap := isCrlf_widerGap hbefore he.lead
    exact (hgap.append he.content).append (ih he.trail hpieces)

private theorem isCrlf_joinVisible {pieces : List Edged} (h : ∀ e ∈ pieces, e.IsCrlf) :
    IsCrlf (joinVisible pieces) := by
  cases pieces with
  | nil => exact isCrlf_nil
  | cons e pieces =>
    obtain ⟨he, hpieces⟩ := List.forall_mem_cons.mp h
    have hgap := isCrlf_edgeGap he.lead
    exact (hgap.append he.content).append (isCrlf_joinBehind he.trail hpieces)

/-- Joined iterations keep their line ends whole in both layouts. -/
theorem LoopLayout.isCrlf_join (layout : LoopLayout) {pieces : List Text}
    (h : ∀ t ∈ pieces, IsCrlf t) : IsCrlf (layout.join pieces) := by
  cases layout with
  | block => exact .flatMap fun t ht => isCrlf_dropTrailingBlankLines (h t ht)
  | inline =>
    apply isCrlf_joinVisible
    intro e he
    obtain ⟨t, ht, hedged⟩ := List.mem_filterMap.mp he
    exact Edged.isCrlf_of_ofText? hedged (h t ht)

/-! ## Filters -/

/-- No filter separates a line feed from its carriage return, or brings one without. -/
def Filters.KeepCrlf (filters : Filters) : Prop :=
  ∀ f ∈ filters.latestFirst, ∀ t, IsCrlf t → IsCrlf (f.apply t)

/-- The filters that are always there keep line ends whole. -/
theorem Filters.keepCrlf_standard : Filters.standard.KeepCrlf := by
  intro f hf t ht
  simp only [standard, empty, register, List.foldl_cons, List.foldl_nil, List.mem_cons,
    List.not_mem_nil, or_false] at hf
  rcases hf with rfl | rfl | rfl | rfl | rfl | rfl
  · exact ht.of_recased (recased_titleCase t)
  · exact ht.trim
  · exact ht.of_recased (recased_lower t)
  · exact ht.of_recased (recased_upper t)
  · exact isCrlf_of_not_mem (not_mem_ofNat (by decide) t.length)
  · exact ht.of_recased (recased_capitalize t)

/-! ## Results -/

/-- A result satisfies `p`, unless it is a failure. -/
def Yields {ε α : Type} (p : α → Prop) (result : Except ε α) : Prop :=
  ∀ a, result = .ok a → p a

namespace Yields

variable {ε α β : Type} {p : α → Prop} {q : β → Prop}

/-- A value is a result. -/
theorem ok {a : α} (h : p a) : Yields p (.ok a : Except ε α) := by
  rintro _ ⟨⟩
  exact h

/-- A result that goes on with what it satisfies. -/
theorem bind {x : Except ε α} {f : α → Except ε β} (hx : Yields p x)
    (hf : ∀ a, p a → Yields q (f a)) : Yields q (x >>= f) := by
  cases x with
  | error e => exact nofun
  | ok a => exact hf a (hx a rfl)

/-- All results of a list of items, if each of them satisfies the same. -/
theorem mapM {f : α → Except ε β} {items : List α} (h : ∀ item ∈ items, Yields q (f item)) :
    Yields (fun results => ∀ b ∈ results, q b) (items.mapM f) := by
  induction items with
  | nil => exact .ok nofun
  | cons item items ih =>
    obtain ⟨hitem, hitems⟩ := List.forall_mem_cons.mp h
    rw [List.mapM_cons]
    exact hitem.bind fun b hb => (ih hitems).bind fun bs hbs =>
      .ok (List.forall_mem_cons.mpr ⟨hb, hbs⟩)

end Yields

/-- A chain of filters keeps line ends whole. -/
theorem Filters.KeepCrlf.applyAll {filters : Filters} (h : filters.KeepCrlf) {input : Text}
    (hinput : IsCrlf input) (names : List Text) :
    Yields IsCrlf (filters.applyAll input names) := by
  induction names generalizing input with
  | nil => exact .ok hinput
  | cons name rest ih =>
    rw [Filters.applyAll]
    cases hfind : filters.find? name with
    | none => exact nofun
    | some f => exact ih (h f (List.mem_of_find?_eq_some hfind) input hinput)

/-! ## Values -/

/-- All strings in a value, at any depth, keep their line ends whole. -/
def Value.IsCrlf (v : Value) : Prop := ∀ t, (Value.string t).IsPartOf v → Text.IsCrlf t

/-- All strings in the variables, at any depth, keep their line ends whole. -/
def Variables.IsCrlf (vars : Variables) : Prop := (Value.mapping vars.entries).IsCrlf

namespace Value.IsCrlf

variable {v w : Value}

/-- The strings in a part are strings of the whole. -/
theorem of_isPartOf (h : v.IsCrlf) (hw : w.IsPartOf v) : w.IsCrlf :=
  fun t ht => h t (ht.trans hw)

/-- The text of the value keeps its line ends whole. -/
theorem toText (h : v.IsCrlf) : Text.IsCrlf v.toText := by
  by_cases hstring : ∃ t, v = .string t
  · obtain ⟨t, rfl⟩ := hstring
    exact h t .self
  · exact isCrlf_of_not_mem (not_mem_toText fun t ht => hstring ⟨t, ht⟩)

end Value.IsCrlf

/-- All values of names keep their line ends whole. -/
def Scope.IsCrlf (scope : Scope) : Prop :=
  ∀ name value, scope.get? name = some value → value.IsCrlf

/-- An interpolation shows what its filters make of nothing, or of the text of the value that its
path leads to. -/
theorem Scope.exists_applyAll_of_interpolate {scope : Scope} {filters : Filters}
    {i : Interpolation} {shown : Text} (h : scope.interpolate filters i = .ok shown) :
    ∃ t, (t = [] ∨ ∃ value, scope.resolve i.pipe.path = some value ∧ t = value.toText) ∧
      filters.applyAll t i.pipe.filters = .ok shown := by
  unfold interpolate at h
  dsimp only at h
  split at h
  · rename_i shown' happlied
    cases h
    refine ⟨_, ?_, happlied⟩
    cases hvalue : scope.resolve i.pipe.path with
    | none => exact Or.inl rfl
    | some value => exact Or.inr ⟨value, rfl, rfl⟩
  · cases h

namespace Scope.IsCrlf

variable {scope : Scope}

/-- Without bindings a scope is as good as its variables. -/
theorem root {vars : Variables} (h : vars.IsCrlf) : Scope.IsCrlf ⟨[], vars⟩ := by
  intro name value hvalue
  rw [get?_root] at hvalue
  exact Value.IsCrlf.of_isPartOf h (.entry (Entries.mem_of_get? hvalue) .self)

/-- A loop binds a value of the same kind. -/
theorem bind (h : scope.IsCrlf) {value : Value} (hvalue : value.IsCrlf) (name : Text) :
    (scope.bind name value).IsCrlf := by
  intro other value' hvalue'
  rw [get?_bind] at hvalue'
  split at hvalue'
  · cases hvalue'
    exact hvalue
  · exact h other value' hvalue'

/-- What a path leads to is of the same kind. -/
theorem resolve (h : scope.IsCrlf) {p : Path} {value : Value}
    (hvalue : scope.resolve p = some value) : value.IsCrlf := by
  obtain ⟨root, hroot, hlookup⟩ := Option.bind_eq_some_iff.mp hvalue
  exact (h p.head root hroot).of_isPartOf (Value.isPartOf_of_lookup hlookup)

/-- The items of a loop are of the same kind. -/
theorem items (h : scope.IsCrlf) (iterable : Path) :
    ∀ item ∈ scope.items iterable, item.IsCrlf := by
  unfold Scope.items
  split
  · rename_i items hitems
    exact fun item hitem => (h.resolve hitems).of_isPartOf (.item hitem .self)
  · exact nofun

/-- What an interpolation shows keeps its line ends whole. -/
theorem interpolate (h : scope.IsCrlf) {filters : Filters} (hfilters : filters.KeepCrlf)
    (i : Interpolation) : Yields Text.IsCrlf (scope.interpolate filters i) := by
  intro shown hshown
  obtain ⟨t, ht, happlied⟩ := exists_applyAll_of_interpolate hshown
  have hwhole : Text.IsCrlf t := by
    rcases ht with rfl | ⟨value, hvalue, rfl⟩
    · exact isCrlf_nil
    · exact (h.resolve hvalue).toText
  exact hfilters.applyAll hwhole i.pipe.filters shown happlied

end Scope.IsCrlf

/-! ## Rendering -/

mutual

/-- A node whose texts keep line ends whole shows them whole. -/
theorem Node.isCrlf_render {filters : Filters} (hfilters : filters.KeepCrlf) {scope : Scope}
    (hscope : scope.IsCrlf) (node : Node) (h : ∀ t ∈ node.texts, IsCrlf t) :
    Yields IsCrlf (node.render filters scope) := by
  cases node with
  | text t => exact .ok (h t (List.mem_singleton_self t))
  | interpolation i => exact hscope.interpolate hfilters i
  | loop head layout body =>
    have hbody : ∀ item ∈ scope.items head.iterable,
        Yields IsCrlf (Node.renderAll filters (scope.bind head.name item) body) := by
      intro item hitem
      have hbound := hscope.bind (hscope.items head.iterable item hitem) head.name
      exact Node.isCrlf_renderAll hfilters hbound body h
    rw [render]
    exact (Yields.mapM hbody).bind fun pieces hpieces => .ok (layout.isCrlf_join hpieces)
  | conditional condition consequent alternative =>
    obtain ⟨hconsequent, halternative⟩ := List.forall_mem_append.mp h
    rw [render]
    split
    · exact Node.isCrlf_renderAll hfilters hscope consequent hconsequent
    · exact Node.isCrlf_renderAll hfilters hscope alternative halternative

/-- Nodes whose texts keep line ends whole show them whole. -/
theorem Node.isCrlf_renderAll {filters : Filters} (hfilters : filters.KeepCrlf) {scope : Scope}
    (hscope : scope.IsCrlf) (nodes : List Node) (h : ∀ t ∈ Node.textsAll nodes, IsCrlf t) :
    Yields IsCrlf (Node.renderAll filters scope nodes) := by
  cases nodes with
  | nil => exact .ok isCrlf_nil
  | cons node rest =>
    obtain ⟨hnode, hrest⟩ := List.forall_mem_append.mp h
    have hfront := Node.isCrlf_render hfilters hscope node hnode
    have hback := Node.isCrlf_renderAll hfilters hscope rest hrest
    rw [renderAll]
    exact hfront.bind fun front hfront => hback.bind fun back hback => .ok (hfront.append hback)

end

/-- A source is parsed into a tree whose texts keep its line ends whole. -/
theorem Engine.isCrlf_parseNodes {settings : Settings} {source : Text} (hsource : IsCrlf source) :
    Yields (fun nodes => ∀ t ∈ Node.textsAll nodes, IsCrlf t) (parseNodes settings source) := by
  intro nodes hnodes
  unfold parseNodes at hnodes
  split at hnodes
  · rename_i tokens hscan
    exact Node.forall_textsAll_of_ofTokens (fun _ _ => IsCrlf.append) hnodes
      (isCrlf_of_scan hscan hsource)
  · cases hnodes

/-- A document in which every line feed follows a carriage return, rendered with the filters that
are always there and with variables whose strings have the same property, has it again, whatever
the settings are. -/
theorem Engine.isCrlf_of_render (settings : Settings) (source : Text) (vars : Variables)
    (hsource : IsCrlf source) (hvars : vars.IsCrlf) (shown : Text)
    (h : Engine.render ⟨settings, .standard⟩ source vars = .ok shown) : IsCrlf shown := by
  have hrender : Yields IsCrlf (Engine.render ⟨settings, .standard⟩ source vars) :=
    Yields.bind (Engine.isCrlf_parseNodes hsource) fun nodes hnodes =>
      Node.isCrlf_renderAll Filters.keepCrlf_standard (Scope.IsCrlf.root hvars) nodes hnodes
  exact hrender shown h

/-- A list on lines of its own, with blank lines between the items, and a list in a line. -/
def crlfLists : Text :=
  "{% for u in users %}\r\n- {{ u | upper }}\r\n \r\n{% endfor %}\r\n".toList ++
    "of {% for u in users %}\r\n{{ u }} {% endfor %}{% if users %}.{% endif %}\r\n".toList

/-- The items, of which one goes over two lines. -/
def crlfItems : Variables :=
  ⟨[("users".toList, .sequence [.string "a\r\nb".toList, .string "c".toList])]⟩

/-- Blank lines go away, and every line feed that stays keeps its carriage return. -/
theorem Engine.isCrlf_of_render_crlfLists :
    IsCrlf crlfLists ∧ crlfItems.IsCrlf ∧
      Engine.render ⟨{}, .standard⟩ crlfLists crlfItems =
        .ok "- A\r\nB\r\n- C\r\nof \r\na\r\nb\r\nc.\r\n".toList ∧
      IsCrlf "- A\r\nB\r\n- C\r\nof \r\na\r\nb\r\nc.\r\n".toList := by
  have hsource : IsCrlf crlfLists := by decide +kernel
  have hvars : crlfItems.IsCrlf := by
    intro t ht
    cases ht with
    | entry hentry hsequence =>
      obtain rfl := (Prod.mk.inj (List.mem_singleton.mp hentry)).2
      cases hsequence with
      | item hitem hstring =>
        simp only [List.mem_cons, List.not_mem_nil, or_false] at hitem
        rcases hitem with rfl | rfl <;> cases hstring <;> decide
  have hshown : Engine.render ⟨{}, .standard⟩ crlfLists crlfItems =
      .ok "- A\r\nB\r\n- C\r\nof \r\na\r\nb\r\nc.\r\n".toList := by
    decide +kernel
  exact ⟨hsource, hvars, hshown, isCrlf_of_render {} crlfLists crlfItems hsource hvars _ hshown⟩

end DocTemplate
