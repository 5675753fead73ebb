import DocTemplate.Proofs.Node.Onto
import Mathlib.Data.List.Chain

/-!
# Trees in normal form

A text joins the text in front of it, so a list of nodes never holds an empty text or two texts
side by side. This is kept in the lists of all open blocks at once, whatever opens and closes, and
so it holds of every list of nodes in a finished tree, however deep it stands.
-/

namespace DocTemplate

namespace Node

/-- Whether a node is a text. -/
def isText : Node → Bool
  | .text _ => true
  | .interpolation _ | .loop _ _ _ | .conditional _ _ _ => false

/-- Nodes among which there is no empty text and no text next to another one. -/
structure AreMerged (nodes : List Node) : Prop where
  /-- No text is empty. -/
  nonempty : .text [] ∉ nodes
  /-- Of two neighbours one at least is no text. -/
  apart : nodes.IsChain fun node next => ¬ (node.isText = true ∧ next.isText = true)

mutual

/-- The lists of nodes in a node, those in its parts included. -/
def bodies : Node → List (List Node)
  | .text _ | .interpolation _ => []
  | .loop _ _ body => body :: bodiesAll body
  | .conditional _ consequent alternative =>
    consequent :: bodiesAll consequent ++ alternative :: bodiesAll alternative

/-- The lists of nodes in nodes. -/
def bodiesAll : List Node → List (List Node)
  | [] => []
  | node :: rest => node.bodies ++ bodiesAll rest

end

/-- The nodes are merged, and so are all lists of nodes in them. -/
def AreNormal (nodes : List Node) : Prop := ∀ body ∈ nodes :: bodiesAll nodes, AreMerged body

/-! ## Lists of nodes -/

/-- The lists in nodes are those in each of them. -/
theorem mem_bodiesAll {body nodes : List Node} :
    body ∈ bodiesAll nodes ↔ ∃ node ∈ nodes, body ∈ node.bodies := by
  induction nodes with
  | nil => simp [bodiesAll]
  | cons node rest ih => simp [bodiesAll, ih]

namespace AreMerged

/-- No nodes are merged. -/
theorem nil : AreMerged [] := ⟨List.not_mem_nil, List.isChain_nil⟩

/-- The order of nodes does not matter for their being merged. -/
theorem reverse_iff {nodes : List Node} : AreMerged nodes.reverse ↔ AreMerged nodes := by
  have hapart :
      (nodes.reverse.IsChain fun node next => ¬ (node.isText = true ∧ next.isText = true)) ↔
        nodes.IsChain fun node next => ¬ (node.isText = true ∧ next.isText = true) := by
    rw [List.isChain_reverse]
    simp only [and_comm]
  constructor
  · rintro ⟨hnonempty, h⟩
    exact ⟨fun hmem => hnonempty (List.mem_reverse.mpr hmem), hapart.mp h⟩
  · rintro ⟨hnonempty, h⟩
    exact ⟨fun hmem => hnonempty (List.mem_reverse.mp hmem), hapart.mpr h⟩

/-- A first node is merged with others if it is no empty text and no text in front of a text. -/
theorem cons_iff {node : Node} {nodes : List Node} : AreMerged (node :: nodes) ↔
    node ≠ .text [] ∧ (∀ next ∈ nodes.head?, ¬ (node.isText = true ∧ next.isText = true)) ∧
      AreMerged nodes := by
  constructor
  · rintro ⟨hnonempty, h⟩
    rw [List.mem_cons, not_or] at hnonempty
    rw [List.isChain_cons] at h
    exact ⟨Ne.symm hnonempty.1, h.1, hnonempty.2, h.2⟩
  · rintro ⟨hne, hapart, hnonempty, h⟩
    refine ⟨?_, List.isChain_cons.mpr ⟨hapart, h⟩⟩
    rw [List.mem_cons, not_or]
    exact ⟨Ne.symm hne, hnonempty⟩

/-- What is no text may come next. -/
theorem cons {node : Node} {nodes : List Node} (h : AreMerged nodes) (hnode : node.isText = false) :
    AreMerged (node :: nodes) := by
  refine cons_iff.mpr ⟨?_, ?_, h⟩
  · rintro rfl
    cases hnode
  · rintro next - ⟨htext, -⟩
    rw [hnode] at htext
    cases htext

/-- Text may always be added: it joins a text, and no empty one is added. -/
theorem addText {body : List Node} (h : AreMerged body) (t : Text) :
    AreMerged (Builder.addText t body) := by
  unfold Builder.addText
  split
  · exact h
  · rename_i ht
    split
    · rename_i before rest
      obtain ⟨-, hapart, hrest⟩ := cons_iff.mp h
      refine cons_iff.mpr ⟨?_, hapart, hrest⟩
      simp [ht]
    · rename_i hbefore
      refine cons_iff.mpr ⟨by simpa using ht, ?_, h⟩
      rintro next hnext ⟨-, htext⟩
      cases next with
      | text before =>
        obtain ⟨rest, rfl⟩ := List.head?_eq_some_iff.mp hnext
        exact hbefore before rest rfl
      | interpolation _ | loop _ _ _ | conditional _ _ _ => cases htext

end AreMerged

namespace AreNormal

/-- No nodes are in normal form. -/
theorem nil : AreNormal [] := by
  intro body hbody
  obtain rfl := List.mem_singleton.mp hbody
  exact .nil

/-- Nodes in normal form are merged, and so are the lists in each of them. -/
theorem iff_forall {nodes : List Node} :
    AreNormal nodes ↔ AreMerged nodes ∧ ∀ node ∈ nodes, ∀ body ∈ node.bodies, AreMerged body := by
  rw [AreNormal, List.forall_mem_cons]
  simp only [mem_bodiesAll, forall_exists_index, and_imp]
  exact and_congr_right fun _ => ⟨fun h node hnode body hbody => h body node hnode hbody,
    fun h body node hnode hbody => h node hnode body hbody⟩

/-- The order of nodes does not matter for their normal form. -/
theorem reverse_iff {nodes : List Node} : AreNormal nodes.reverse ↔ AreNormal nodes := by
  simp only [iff_forall, AreMerged.reverse_iff, List.mem_reverse]

/-- What is no text may come next if its parts are in normal form. -/
theorem cons {node : Node} {nodes : List Node} (h : AreNormal nodes) (hnode : node.isText = false)
    (hbodies : ∀ body ∈ node.bodies, AreMerged body) : AreNormal (node :: nodes) := by
  rw [iff_forall] at h ⊢
  exact ⟨h.1.cons hnode, List.forall_mem_cons.mpr ⟨hbodies, h.2⟩⟩

/-- Text may always be added. -/
theorem addText {body : List Node} (h : AreNormal body) (t : Text) :
    AreNormal (Builder.addText t body) := by
  rw [iff_forall] at h ⊢
  refine ⟨h.1.addText t, ?_⟩
  unfold Builder.addText
  split
  · exact h.2
  · split
    · exact List.forall_mem_cons.mpr ⟨nofun, (List.forall_mem_cons.mp h.2).2⟩
    · exact List.forall_mem_cons.mpr ⟨nofun, h.2⟩

end AreNormal

end Node

/-! ## Trees in the making -/

/-- The finished part of an open block is in normal form. -/
def OpenBlock.IsNormal : OpenBlock → Prop
  | loop _ _ | consequent _ => True
  | alternative _ nodes => Node.AreNormal nodes

/-- All lists of nodes in a tree in the making are in normal form. -/
structure Builder.IsNormal (b : Builder) : Prop where
  /-- The nodes of the innermost open block. -/
  body : Node.AreNormal b.body
  /-- The nodes around each open block, and those of its finished part. -/
  frames : ∀ frame ∈ b.frames, Node.AreNormal frame.outer ∧ frame.block.IsNormal

namespace Builder

/-- Nothing is in normal form. -/
theorem isNormal_start : start.IsNormal := ⟨.nil, nofun⟩

/-- Text keeps the normal form. -/
theorem IsNormal.pushText {b : Builder} (h : b.IsNormal) (t : Text) : (b.pushText t).IsNormal :=
  ⟨h.body.addText t, h.frames⟩

/-- An interpolation keeps the normal form, whether it is text or not. -/
theorem IsNormal.interpolate {b : Builder} (h : b.IsNormal) (tag : Tag) (location : Location) :
    (b.interpolate tag location).IsNormal := by
  unfold Builder.interpolate
  split
  · exact ⟨h.body.cons rfl (List.forall_mem_nil _), h.frames⟩
  · exact h.pushText tag.raw

/-- An opened block starts without nodes and leaves those around it as they are. -/
theorem IsNormal.openBlock {b : Builder} (h : b.IsNormal) (block : OpenBlock)
    (hblock : block.IsNormal) (tag : Text) (location : Location) :
    (b.openBlock block tag location).IsNormal :=
  ⟨.nil, List.forall_mem_cons.mpr ⟨⟨h.body, hblock⟩, h.frames⟩⟩

/-- A statement that is obeyed keeps the normal form: a finished block is put behind the nodes
around it. -/
theorem Obeys.isNormal {b b' : Builder} {k : Keyword} {tag : Tag} {location : Location}
    (hobeys : Obeys tag location k b b') (h : b.IsNormal) : b'.IsNormal := by
  cases hobeys with
  | openLoop _ => exact h.openBlock (.loop _ _) trivial _ _
  | openCondition _ => exact h.openBlock (.consequent _) trivial _ _
  | alternative _ =>
    obtain ⟨hbody, hframes⟩ := h
    obtain ⟨⟨houter, -⟩, hrest⟩ := List.forall_mem_cons.mp hframes
    have hfinished := Node.AreNormal.reverse_iff.mpr hbody
    exact ⟨.nil, List.forall_mem_cons.mpr ⟨⟨houter, hfinished⟩, hrest⟩⟩
  | closeLoop _ =>
    obtain ⟨hbody, hframes⟩ := h
    obtain ⟨⟨houter, -⟩, hrest⟩ := List.forall_mem_cons.mp hframes
    have hfinished := Node.AreNormal.reverse_iff.mpr hbody
    exact ⟨houter.cons rfl hfinished, hrest⟩
  | closeConsequent _ =>
    obtain ⟨hbody, hframes⟩ := h
    obtain ⟨⟨houter, -⟩, hrest⟩ := List.forall_mem_cons.mp hframes
    have hfinished := Node.AreNormal.reverse_iff.mpr hbody
    exact ⟨houter.cons rfl (List.forall_mem_append.mpr ⟨hfinished, Node.AreNormal.nil⟩), hrest⟩
  | closeAlternative _ =>
    obtain ⟨hbody, hframes⟩ := h
    obtain ⟨⟨houter, hconsequent⟩, hrest⟩ := List.forall_mem_cons.mp hframes
    have hfinished := Node.AreNormal.reverse_iff.mpr hbody
    exact ⟨houter.cons rfl (List.forall_mem_append.mpr ⟨hconsequent, hfinished⟩), hrest⟩

/-- A token that is accepted keeps the normal form. -/
theorem IsNormal.accept {b b' : Builder} {location : Location} {token : Token} (h : b.IsNormal)
    (haccept : b.accept location token = .ok b') : b'.IsNormal := by
  cases token with
  | text t =>
    cases haccept
    exact h.pushText t
  | escaped literal =>
    cases haccept
    exact h.pushText literal
  | tag tag =>
    cases hkind : tag.kind with
    | interpolation =>
      simp only [Builder.accept, hkind, Except.ok.injEq] at haccept
      exact haccept ▸ h.interpolate tag _
    | statement k => exact ((accept_statement_eq_ok_iff hkind).mp haccept).isNormal h

/-- A run that comes through keeps the normal form. -/
theorem IsNormal.acceptAll {b b' : Builder} {location : Location} {tokens : List Token}
    (h : b.IsNormal) (hrun : b.acceptAll location tokens = .ok b') : b'.IsNormal := by
  induction tokens generalizing b location with
  | nil =>
    cases hrun
    exact h
  | cons token tokens ih =>
    obtain ⟨b₁, haccept, hrest⟩ := acceptAll_cons_eq_ok_iff.mp hrun
    exact ih (h.accept haccept) hrest

end Builder

/-- The tree of tokens is in normal form: in none of its lists of nodes, at any depth, is a text
empty or next to another text. -/
theorem Node.areNormal_of_ofTokens {tokens : List Token} {nodes : List Node}
    (h : ofTokens tokens = .ok nodes) : AreNormal nodes := by
  obtain ⟨b, hrun, hfinish⟩ := Builder.ofTokens_eq_ok_iff.mp h
  obtain ⟨-, rfl⟩ := Builder.finish_eq_ok_iff.mp hfinish
  exact AreNormal.reverse_iff.mpr (Builder.isNormal_start.acceptAll hrun).body

/-- Texts of all kinds in a row, around a condition and in its alternative. -/
def piecewiseTokens : List Token :=
  [.text ['a'], .escaped "{{ b }}".toList,
    .tag ⟨.statement .condition, "if on".toList, [], "{% if on %}".toList, [], false, false⟩,
    .tag ⟨.statement .alternative, "else".toList, [], "{% else %}".toList, [], false, false⟩,
    .text [], .tag ⟨.interpolation, "1 + 1".toList, [], "{{ 1 + 1 }}".toList, [], false, false⟩,
    .text ['c'], .escaped [],
    .tag ⟨.statement .endCondition, "endif".toList, [], "{% endif %}".toList, [], false, false⟩]

/-- The tree of these tokens. -/
def piecewiseTree : List Node :=
  [.text "a{{ b }}".toList,
    .conditional (Path.ofName ['o', 'n'] rfl) [] [.text "{{ 1 + 1 }}c".toList]]

/-- Each row of texts is one text, and the first branch of the condition has none. -/
theorem Node.areNormal_of_ofTokens_piecewise :
    ofTokens piecewiseTokens = .ok piecewiseTree ∧ AreNormal piecewiseTree := by
  have htree : ofTokens piecewiseTokens = .ok piecewiseTree := rfl
  exact ⟨htree, areNormal_of_ofTokens htree⟩

end DocTemplate
