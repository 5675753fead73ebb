import DocTemplate.Document
import DocTemplate.Proofs.Text.Split

/-!
# Output paths

A name in a path is not empty and holds no slash, so the place of a document in an output directory
is never given from the root. Below one directory, different places are different paths. Documents
have the same place exactly if their paths keep the same names: all of a relative path, but only the
last of an absolute one.
-/

namespace DocTemplate

open Text

namespace FilePath

/-- The text is a name: it holds no slash, and between slashes it stands for itself. -/
def IsName (t : Text) : Prop := '/' ∉ t ∧ component? t = some (.normal t)

/-- A name is not empty. -/
theorem IsName.ne_nil {t : Text} (h : IsName t) : t ≠ [] := by
  rintro rfl
  cases h.2

/-- The names among the components of a path are names. -/
theorem isName_of_mem_components {p : FilePath} {name : Text}
    (h : .normal name ∈ components p) : IsName name := by
  have hpiece : .normal name ∈ (splitOn '/' p).filterMap component? := by
    rw [components] at h
    rcases List.mem_append.mp h with h | h
    · split at h
      · simp at h
      · split at h <;> simp at h
    · exact h
  obtain ⟨piece, hmem, hname⟩ := List.mem_filterMap.mp hpiece
  have hslash : '/' ∉ piece := by
    intro hslash
    simpa using eq_false_of_mem_splitWhere hmem _ hslash
  have hself : piece = name := by
    unfold component? at hname
    split at hname
    · cases hname
    · split at hname
      · cases hname
      · cases hname
        rfl
  subst hself
  exact ⟨hslash, hname⟩

/-- The name of what a path leads to is among its components. -/
theorem normal_mem_components_of_fileName {p : FilePath} {name : Text}
    (h : fileName p = some name) : .normal name ∈ components p := by
  unfold fileName at h
  split at h
  · rename_i last hlast
    cases h
    exact List.mem_of_getLast? hlast
  · cases h

/-- A text without slashes does not start at the root. -/
theorem isAbsolute_of_not_mem {t : Text} (h : '/' ∉ t) : isAbsolute t = false := by
  cases t with
  | nil => rfl
  | cons c t =>
    have hc : c ≠ '/' := fun hc => h (hc ▸ List.mem_cons_self)
    simpa [isAbsolute] using hc

/-- Joined names do not start at the root. -/
theorem isAbsolute_ofNames {names : List Text} (h : ∀ name ∈ names, IsName name) :
    isAbsolute (ofNames names) = false := by
  cases names with
  | nil => rfl
  | cons first rest =>
    have hfirst := h first List.mem_cons_self
    rw [isAbsolute, ofNames, head?_intercalate hfirst.ne_nil]
    exact isAbsolute_of_not_mem hfirst.1

/-- Joined names are the names between their slashes. -/
theorem splitOn_ofNames {names : List Text} (h : ∀ name ∈ names, IsName name)
    (hne : names ≠ []) : splitOn '/' (ofNames names) = names :=
  splitOn_intercalate (fun name hname => (h name hname).1) hne

/-- Nothing joined from names is empty. -/
theorem ofNames_ne_nil {names : List Text} (h : ∀ name ∈ names, IsName name)
    (hne : names ≠ []) : ofNames names ≠ [] := by
  intro hnil
  have hsplit := splitOn_ofNames h hne
  rw [hnil] at hsplit
  have hempty : [] ∈ names := hsplit ▸ List.mem_singleton_self []
  exact (h [] hempty).ne_nil rfl

/-- Different names make different paths. -/
theorem ofNames_inj {names names' : List Text} (h : ∀ name ∈ names, IsName name)
    (h' : ∀ name ∈ names', IsName name) (heq : ofNames names = ofNames names') :
    names = names' := by
  by_cases hnil : names = []
  · by_cases hnil' : names' = []
    · rw [hnil, hnil']
    · rw [hnil] at heq
      exact absurd heq.symm (ofNames_ne_nil h' hnil')
  · by_cases hnil' : names' = []
    · rw [hnil'] at heq
      exact absurd heq (ofNames_ne_nil h hnil)
    · rw [← splitOn_ofNames h hnil, heq, splitOn_ofNames h' hnil']

/-- Below one directory, different places are different paths. -/
theorem join_inj {directory p q : FilePath} (hp : isAbsolute p = false) (hq : isAbsolute q = false)
    (h : join directory p = join directory q) : p = q := by
  unfold join at h
  simp only [hp, hq, Bool.false_eq_true, false_or] at h
  split at h
  · exact h
  · split at h
    · exact List.append_cancel_left h
    · exact (List.cons.inj (List.append_cancel_left h)).2

end FilePath

namespace Document

/-- The names in a path are names. -/
theorem isName_of_mem_namesIn {p : FilePath} {name : Text} (h : name ∈ namesIn p) :
    FilePath.IsName name := by
  obtain ⟨component, hmem, hname⟩ := List.mem_filterMap.mp h
  cases component with
  | normal _ =>
    cases hname
    exact FilePath.isName_of_mem_components hmem
  | root => cases hname
  | current => cases hname
  | parent => cases hname

/-- The place of a document in an output directory is not given from the root. -/
theorem isAbsolute_outputPath (d : Document) : FilePath.isAbsolute d.outputPath = false := by
  rw [outputPath, outputPathOf]
  split
  · cases hname : FilePath.fileName d.path with
    | none => rfl
    | some name =>
      have hmem := FilePath.normal_mem_components_of_fileName hname
      exact FilePath.isAbsolute_of_not_mem (FilePath.isName_of_mem_components hmem).1
  · exact FilePath.isAbsolute_ofNames fun _ => isName_of_mem_namesIn

/-- Documents are written to the same file of a directory only if they have the same place in it. -/
theorem join_outputPath_eq_iff (directory : FilePath) (d d' : Document) :
    FilePath.join directory d.outputPath = FilePath.join directory d'.outputPath ↔
      d.outputPath = d'.outputPath :=
  ⟨FilePath.join_inj d.isAbsolute_outputPath d'.isAbsolute_outputPath, congrArg _⟩

/-! ## The names that a place keeps -/

/-- The names of a path that its place in an output directory keeps: all of them if the path is
relative, and the name of what it leads to if it is absolute. -/
def keptNames (p : FilePath) : List Text :=
  if FilePath.isAbsolute p then (FilePath.fileName p).toList else namesIn p

/-- A place is made of the names that it keeps. -/
theorem outputPathOf_eq_ofNames (p : FilePath) :
    outputPathOf p = FilePath.ofNames (keptNames p) := by
  rw [outputPathOf, keptNames]
  split
  · cases FilePath.fileName p with
    | none => rfl
    | some name => exact List.intercalate_singleton.symm
  · rfl

/-- What is kept are names. -/
theorem isName_of_mem_keptNames {p : FilePath} {name : Text} (h : name ∈ keptNames p) :
    FilePath.IsName name := by
  rw [keptNames] at h
  split at h
  · have hname : FilePath.fileName p = some name := Option.mem_toList.mp h
    exact FilePath.isName_of_mem_components (FilePath.normal_mem_components_of_fileName hname)
  · exact isName_of_mem_namesIn h

/-- Paths have the same place exactly if they keep the same names. -/
theorem outputPathOf_eq_iff {p q : FilePath} :
    outputPathOf p = outputPathOf q ↔ keptNames p = keptNames q := by
  rw [outputPathOf_eq_ofNames, outputPathOf_eq_ofNames]
  constructor
  · intro h
    exact FilePath.ofNames_inj (fun _ => isName_of_mem_keptNames)
      (fun _ => isName_of_mem_keptNames) h
  · intro h
    rw [h]

/-- All components of the path are names. -/
def HasNamesOnly (p : FilePath) : Prop := ∀ c ∈ FilePath.components p, nameOf? c ≠ none

/-- A path of names keeps all its components. -/
theorem components_of_hasNamesOnly {p : FilePath} (h : HasNamesOnly p) :
    FilePath.components p = (keptNames p).map .normal := by
  have hrelative : FilePath.isAbsolute p = false := by
    rw [Bool.eq_false_iff]
    intro habsolute
    have hroot : .root ∈ FilePath.components p := by simp [FilePath.components, habsolute]
    exact h .root hroot rfl
  rw [keptNames, if_neg (by simp [hrelative]), namesIn]
  rw [HasNamesOnly] at h
  generalize FilePath.components p = components at h
  induction components with
  | nil => rfl
  | cons c components ih =>
    obtain ⟨hc, hrest⟩ := List.forall_mem_cons.mp h
    cases c with
    | normal name =>
      have hname : nameOf? (.normal name) = some name := rfl
      rw [List.filterMap_cons_some hname, List.map_cons, ← ih hrest]
    | root | current | parent => simp [nameOf?] at hc

end Document

end DocTemplate
