import DocTemplate.Proofs.OutputPath
import Mathlib.Data.List.Basic

/-!
# Outputs stay below their directory

What a place in an output directory is made of are names and nothing else: no root, no dot and no
two dots. Joined to a directory it therefore adds names to the components of this directory, so it
leads nowhere else than below it. A relative path keeps all its names in order, and every place is
its own place.
-/

namespace DocTemplate

open Text

namespace FilePath

/-! ## Components of joined paths -/

private theorem splitOn_append_slash (base p : FilePath) :
    splitOn '/' (base ++ '/' :: p) = splitOn '/' base ++ splitOn '/' p := by
  simp only [splitOn, splitWhere_eq_splitOnP]
  exact List.splitOnP_append_cons base p rfl

/-- Behind a slash every piece adds what it stands for. -/
theorem components_append_slash (base p : FilePath) :
    components (base ++ '/' :: p) =
      components (base ++ ['/']) ++ (splitOn '/' p).filterMap component? := by
  have hroot : isAbsolute (base ++ '/' :: p) = isAbsolute (base ++ ['/']) := by
    cases base <;> rfl
  have hfirst (pieces : List Text) :
      (splitOn '/' base ++ pieces).head? = (splitOn '/' base).head? :=
    List.head?_append_of_ne_nil _ (splitWhere_ne_nil _ base)
  have hempty : (splitOn '/' []).filterMap component? = [] := rfl
  simp only [components, hroot, splitOn_append_slash, hfirst, List.filterMap_append, hempty,
    List.append_nil, List.append_assoc]

/-- A slash at the end has no meaning, unless it is the root. -/
theorem components_concat_slash {p : FilePath} (hne : p ≠ []) :
    components (p ++ ['/']) = components p := by
  have hroot : isAbsolute (p ++ ['/']) = isAbsolute p := by
    rw [isAbsolute, isAbsolute, List.head?_append_of_ne_nil p hne]
  have hfirst (pieces : List Text) : (splitOn '/' p ++ pieces).head? = (splitOn '/' p).head? :=
    List.head?_append_of_ne_nil _ (splitWhere_ne_nil _ p)
  have hempty : (splitOn '/' []).filterMap component? = [] := rfl
  simp only [components, hroot, splitOn_append_slash, hfirst, List.filterMap_append, hempty,
    List.append_nil]

/-- The pieces of joined names stand for these names. -/
theorem filterMap_splitOn_ofNames {names : List Text} (h : ∀ name ∈ names, IsName name) :
    (splitOn '/' (ofNames names)).filterMap component? = names.map .normal := by
  by_cases hnil : names = []
  · rw [hnil]
    rfl
  · rw [splitOn_ofNames h hnil]
    apply List.filterMap_eq_map_iff_forall_eq_some.mpr
    intro name hname
    exact (h name hname).2

/-- The components of joined names are these names. -/
theorem components_ofNames {names : List Text} (h : ∀ name ∈ names, IsName name) :
    components (ofNames names) = names.map .normal := by
  have hdot : (splitOn '/' (ofNames names)).head? ≠ some ['.'] := by
    by_cases hnil : names = []
    · rw [hnil]
      decide
    · rw [splitOn_ofNames h hnil]
      intro hdot
      have hname := h ['.'] (List.mem_of_head? hdot)
      cases hname.2
  rw [components, isAbsolute_ofNames h, filterMap_splitOn_ofNames h]
  simp [hdot]

/-- Names joined to a directory are added to its components. -/
theorem components_join_ofNames (directory : FilePath) {names : List Text}
    (h : ∀ name ∈ names, IsName name) :
    components (join directory (ofNames names)) = components directory ++ names.map .normal := by
  have hrelative := isAbsolute_ofNames h
  unfold join
  by_cases hnil : directory = []
  · rw [if_pos (Or.inr hnil), components_ofNames h, hnil]
    rfl
  · rw [if_neg (by simp [hrelative, hnil])]
    split
    · rename_i hslash
      obtain ⟨init, rfl⟩ := List.getLast?_eq_some_iff.mp hslash
      rw [List.append_assoc, List.singleton_append, components_append_slash,
        filterMap_splitOn_ofNames h]
    · rw [components_append_slash, components_concat_slash hnil, filterMap_splitOn_ofNames h]

end FilePath

/-- Whether a component is a name. -/
def Component.isName : Component → Bool
  | normal _ => true
  | root | current | parent => false

namespace Document

/-- Of a relative path all names are kept in order, and of an absolute one its last component if it
is a name. -/
theorem map_keptNames (p : FilePath) :
    (keptNames p).map .normal =
      (if FilePath.isAbsolute p then (FilePath.components p).getLast?.toList
        else FilePath.components p).filter Component.isName := by
  unfold keptNames
  split
  · unfold FilePath.fileName
    cases (FilePath.components p).getLast? with
    | none => rfl
    | some last => cases last <;> rfl
  · unfold namesIn
    induction FilePath.components p with
    | nil => rfl
    | cons c rest ih =>
      cases c with
      | normal name =>
        have hname : nameOf? (.normal name) = some name := rfl
        rw [List.filterMap_cons_some hname, List.map_cons, ih]
        rfl
      | root | current | parent => exact ih

/-- The components of a place are the names that it keeps. -/
theorem components_outputPathOf (p : FilePath) :
    FilePath.components (outputPathOf p) = (keptNames p).map .normal := by
  rw [outputPathOf_eq_ofNames]
  exact FilePath.components_ofNames fun _ => isName_of_mem_keptNames

/-- A place keeps all the names that it is made of. -/
theorem keptNames_outputPathOf (p : FilePath) : keptNames (outputPathOf p) = keptNames p := by
  have hrelative : FilePath.isAbsolute (outputPathOf p) = false := by
    rw [outputPathOf_eq_ofNames]
    exact FilePath.isAbsolute_ofNames fun _ => isName_of_mem_keptNames
  have hname : nameOf? ∘ Component.normal = some := rfl
  rw [keptNames, if_neg (by simp [hrelative]), namesIn, components_outputPathOf,
    List.filterMap_map, hname, List.filterMap_some]

/-- The place of a document in an output directory is relative and made of names only: of a relative
path all its names in order, and of an absolute one its last component if it is a name. Joined to a
directory it adds these names to the components of the directory, and it is its own place. -/
theorem outputPath_staysBelow (d : Document) (directory : FilePath) :
    FilePath.isAbsolute d.outputPath = false ∧
      FilePath.components d.outputPath =
        (if FilePath.isAbsolute d.path then (FilePath.components d.path).getLast?.toList
          else FilePath.components d.path).filter Component.isName ∧
      FilePath.components (FilePath.join directory d.outputPath) =
        FilePath.components directory ++ FilePath.components d.outputPath ∧
      ∀ content rendered,
        (Document.mk d.outputPath content rendered).outputPath = d.outputPath := by
  have hcomponents := components_outputPathOf d.path
  refine ⟨isAbsolute_outputPath d, ?_, ?_, ?_⟩
  · rw [outputPath, hcomponents, map_keptNames]
  · rw [outputPath, hcomponents, outputPathOf_eq_ofNames]
    exact FilePath.components_join_ofNames directory fun _ => isName_of_mem_keptNames
  · intro content rendered
    exact outputPathOf_eq_iff.mpr (keptNames_outputPathOf d.path)

example : outputPathOf "../shared/./intro.md".toList = "shared/intro.md".toList := by decide

end Document

end DocTemplate
