import DocTemplate.Proofs.Pipeline.Standard
import Mathlib.Data.List.Nodup
import Mathlib.Tactic.Choose

/-!
# Which documents keep their output

The place of a document in an output directory keeps only some names of its path, so documents from
different paths may share a place. Such a place holds the text of the last of them, and the others
lose theirs unless they render alike. Documents whose paths keep different names lose nothing, and
so do documents from different paths of names only.
-/

namespace DocTemplate

/-- The last of the documents whose paths keep the given names. -/
def IsLastKeeping (documents : List Document) (names : List Text) (last : Document) : Prop :=
  ∃ front back, documents = front ++ last :: back ∧ Document.keptNames last.path = names ∧
    ∀ d ∈ back, Document.keptNames d.path ≠ names

/-- The last document that keeps the names of a document is the last one with its place. -/
theorem isLastKeeping_iff {documents : List Document} {d last : Document} :
    IsLastKeeping documents (Document.keptNames d.path) last ↔
      IsLastAt documents d.outputPath last := by
  simp only [IsLastKeeping, IsLastAt, Document.outputPath, ne_eq, Document.outputPathOf_eq_iff]

/-- There is a last document that keeps the names of a document. -/
theorem exists_isLastKeeping {documents : List Document} {d : Document} (hd : d ∈ documents) :
    ∃ last, IsLastKeeping documents (Document.keptNames d.path) last := by
  obtain ⟨last, hlast⟩ := exists_isLastAt (List.mem_map_of_mem (f := Document.outputPath) hd)
  exact ⟨last, isLastKeeping_iff.mpr hlast⟩

/-- Among documents that keep different names each one is the last that keeps its own. -/
theorem eq_of_isLastKeeping {documents : List Document}
    (hnodup : (documents.map fun d => Document.keptNames d.path).Nodup) {d last : Document}
    (hd : d ∈ documents) (hlast : IsLastKeeping documents (Document.keptNames d.path) last) :
    last = d := by
  obtain ⟨front, back, rfl, hnames, -⟩ := hlast
  have hmem : last ∈ front ++ last :: back := List.mem_append_right front List.mem_cons_self
  exact List.inj_on_of_nodup_map hnodup hmem hd hnames

/-- The file at the place of a document in an output directory holds what the document renders
to. -/
def Document.HoldsOwnText (engine : Engine) (vars : Variables) (directory : FilePath)
    (written : FileMap) (d : Document) : Prop :=
  ∃ t, engine.render d.content vars = .ok t ∧
    written.get? (FilePath.join directory d.outputPath) = some t

/-- Documents that the rendering stage comes through are all rendered. -/
theorem Stage.exists_text_of_renderDocuments {c : Context} {documents after : List Document}
    (h : renderDocuments c documents = (after, none)) :
    ∃ text : Document → Text,
      ∀ d ∈ documents, c.engine.render d.content c.vars = .ok (text d) := by
  have hall : ∀ d ∈ documents, ∃ t, c.engine.render d.content c.vars = .ok t := by
    induction documents generalizing after with
    | nil => simp
    | cons d rest ih =>
      rw [renderDocuments] at h
      cases hrender : c.engine.render d.content c.vars with
      | error failure =>
        rw [Document.render, hrender] at h
        cases h
      | ok t =>
        rw [Document.render, hrender] at h
        obtain ⟨-, hstop⟩ := Prod.mk.inj h
        have hafter : renderDocuments c rest = ((renderDocuments c rest).1, none) :=
          Prod.ext rfl hstop
        exact List.forall_mem_cons.mpr ⟨⟨t, hrender⟩, ih hafter⟩
  choose! text htext using hall
  exact ⟨text, htext⟩

namespace Pipeline

variable {engine : Engine} {vars : Variables} {directory : FilePath}
  {documents after : List Document} {files written : FileMap}

/-- The standard pipeline renders and writes documents that all render. -/
theorem run_standard_of_forall {text : Document → Text}
    (htext : ∀ d ∈ documents, engine.render d.content vars = .ok (text d)) (files : FileMap) :
    standard.run ⟨engine, vars, some directory⟩ ⟨documents, files⟩ =
      (⟨documents.map fun d => d.resolved (text d),
        files.writeAll directory (documents.map fun d => d.resolved (text d))⟩, none) := by
  have hresolved := Stage.renderDocuments_of_forall (c := ⟨engine, vars, some directory⟩) htext
  have hmarked : ∀ d ∈ documents.map fun d => d.resolved (text d), d.rendered = true := by
    intro d hd
    obtain ⟨d, -, rfl⟩ := List.mem_map.mp hd
    rfl
  rw [run_standard_of_rendered hresolved, Stage.process_writing,
    Stage.writeDocuments_of_rendered hmarked]

/-- Behind a run of the standard pipeline that does not stop, every document is rendered, and the
files are what is left by writing all of them. -/
theorem exists_text_of_run_standard
    (h : standard.run ⟨engine, vars, some directory⟩ ⟨documents, files⟩ =
      (⟨after, written⟩, none)) :
    ∃ text : Document → Text, (∀ d ∈ documents, engine.render d.content vars = .ok (text d)) ∧
      written = files.writeAll directory (documents.map fun d => d.resolved (text d)) := by
  rcases hrender : Stage.renderDocuments ⟨engine, vars, some directory⟩ documents with
    ⟨rendered, _ | stop⟩
  · obtain ⟨text, htext⟩ := Stage.exists_text_of_renderDocuments hrender
    rw [run_standard_of_forall htext] at h
    exact ⟨text, htext, congrArg (fun result => result.1.files) h.symm⟩
  · rw [run_standard_of_stopped hrender] at h
    cases h

/-- A document holds its own text exactly if the last document with its place renders alike. -/
theorem holdsOwnText_iff {text : Document → Text}
    (htext : ∀ d ∈ documents, engine.render d.content vars = .ok (text d)) (files : FileMap)
    {d last : Document} (hd : d ∈ documents) (hlast : IsLastAt documents d.outputPath last) :
    d.HoldsOwnText engine vars directory
        (files.writeAll directory (documents.map fun d => d.resolved (text d))) ↔
      engine.render last.content vars = engine.render d.content vars := by
  obtain ⟨front, back, rfl, hplace, hback⟩ := hlast
  have hmem : last ∈ front ++ last :: back := List.mem_append_right front List.mem_cons_self
  have hmap : (front ++ last :: back).map (fun d => d.resolved (text d)) =
      front.map (fun d => d.resolved (text d)) ++
        last.resolved (text last) :: back.map fun d => d.resolved (text d) := by
    rw [List.map_append, List.map_cons]
  have hbehind : ∀ d' ∈ back.map fun d => d.resolved (text d),
      d'.outputPath ≠ (last.resolved (text last)).outputPath := by
    intro d' hd'
    obtain ⟨e, he, rfl⟩ := List.mem_map.mp hd'
    exact hplace ▸ hback e he
  have hget : (files.writeAll directory (front.map (fun d => d.resolved (text d)) ++
      last.resolved (text last) :: back.map fun d => d.resolved (text d))).get?
      (FilePath.join directory last.outputPath) = some (text last) :=
    FileMap.get?_writeAll_append hbehind files _
  rw [← hmap, hplace] at hget
  rw [Document.HoldsOwnText, hget, htext d hd, htext last hmem]
  constructor
  · rintro ⟨t, ht, heq⟩
    rw [Option.some.inj heq, ht]
  · intro heq
    exact ⟨text d, rfl, congrArg some (Except.ok.inj heq)⟩

/-- If the standard pipeline comes through, the file of a document holds its own text exactly if the
last document whose path keeps the same names renders to the same text. So nothing is lost if the
paths keep different names, in particular if they are different paths of names only. -/
theorem holdsOwnText_of_run_standard (engine : Engine) (vars : Variables) (directory : FilePath)
    (documents after : List Document) (files written : FileMap)
    (hrun : standard.run ⟨engine, vars, some directory⟩ ⟨documents, files⟩ =
      (⟨after, written⟩, none)) :
    (∀ d ∈ documents, ∀ last, IsLastKeeping documents (Document.keptNames d.path) last →
      (d.HoldsOwnText engine vars directory written ↔
        engine.render last.content vars = engine.render d.content vars)) ∧
    ((documents.map fun d => Document.keptNames d.path).Nodup →
      ∀ d ∈ documents, d.HoldsOwnText engine vars directory written) ∧
    ((documents.map fun d => FilePath.components d.path).Nodup →
      (∀ d ∈ documents, Document.HasNamesOnly d.path) →
      ∀ d ∈ documents, d.HoldsOwnText engine vars directory written) := by
  obtain ⟨text, htext, rfl⟩ := exists_text_of_run_standard hrun
  have hdistinct (hnodup : (documents.map fun d => Document.keptNames d.path).Nodup) :
      ∀ d ∈ documents, d.HoldsOwnText engine vars directory
        (files.writeAll directory (documents.map fun d => d.resolved (text d))) := by
    intro d hd
    obtain ⟨last, hlast⟩ := exists_isLastKeeping hd
    obtain rfl := eq_of_isLastKeeping hnodup hd hlast
    exact (holdsOwnText_iff htext files hd (isLastKeeping_iff.mp hlast)).mpr rfl
  refine ⟨?_, hdistinct, ?_⟩
  · intro d hd last hlast
    exact holdsOwnText_iff htext files hd (isLastKeeping_iff.mp hlast)
  · intro hnodup hnames
    apply hdistinct
    have hcomponents : documents.map (fun d => FilePath.components d.path) =
        (documents.map fun d => Document.keptNames d.path).map fun names =>
          names.map Component.normal := by
      rw [List.map_map]
      apply List.map_congr_left
      intro d hd
      exact Document.components_of_hasNamesOnly (hnames d hd)
    rw [hcomponents] at hnodup
    exact hnodup.of_map _

/-- Two documents from different paths that keep the same name. -/
def sameName : List Document :=
  [⟨['a'], ['1'], false⟩, ⟨['.', '.', '/', 'a'], ['2'], false⟩]

/-- Documents whose paths keep different names, some of them not all of their names. -/
def differentNames : List Document :=
  [⟨['a'], ['1'], false⟩, ⟨['.', '.', '/', 'b'], ['2'], false⟩,
    ⟨['/', 'd', '/', 'c'], ['3'], false⟩]

/-- Of two documents with the same name the first loses its text, though their paths differ and the
run comes through; documents with different names lose nothing. -/
theorem holdsOwnText_of_run_standard_sameName :
    (∃ after written,
      standard.run ⟨{}, .empty, some ['o']⟩ ⟨sameName, .empty⟩ = (⟨after, written⟩, none) ∧
      ¬ Document.HoldsOwnText {} .empty ['o'] written ⟨['a'], ['1'], false⟩) ∧
    ∃ after written,
      standard.run ⟨{}, .empty, some ['o']⟩ ⟨differentNames, .empty⟩ = (⟨after, written⟩, none) ∧
      ∀ d ∈ differentNames, d.HoldsOwnText {} .empty ['o'] written := by
  have hsame : ∀ d ∈ sameName, Engine.render {} d.content .empty = .ok d.content := by
    decide +kernel
  have hdifferent : ∀ d ∈ differentNames, Engine.render {} d.content .empty = .ok d.content := by
    decide +kernel
  constructor
  · have hrun : standard.run ⟨{}, .empty, some ['o']⟩ ⟨sameName, FileMap.empty⟩ = _ :=
      run_standard_of_forall hsame .empty
    refine ⟨_, _, hrun, ?_⟩
    have hlast : IsLastKeeping sameName (Document.keptNames ['a'])
        ⟨['.', '.', '/', 'a'], ['2'], false⟩ :=
      ⟨[⟨['a'], ['1'], false⟩], [], rfl, by decide +kernel, by simp⟩
    rw [(holdsOwnText_of_run_standard _ _ _ _ _ _ _ hrun).1 _ List.mem_cons_self _ hlast]
    decide +kernel
  · have hrun : standard.run ⟨{}, .empty, some ['o']⟩ ⟨differentNames, FileMap.empty⟩ = _ :=
      run_standard_of_forall hdifferent .empty
    exact ⟨_, _, hrun, (holdsOwnText_of_run_standard _ _ _ _ _ _ _ hrun).2.1 (by decide +kernel)⟩

/-- Different paths are not enough to keep every output: the documents may keep the same name. -/
theorem exists_output_lost :
    ¬ ∀ (engine : Engine) (vars : Variables) (directory : FilePath)
      (documents after : List Document) (files written : FileMap),
      (documents.map fun d => FilePath.components d.path).Nodup →
      standard.run ⟨engine, vars, some directory⟩ ⟨documents, files⟩ = (⟨after, written⟩, none) →
      ∀ d ∈ documents, d.HoldsOwnText engine vars directory written := by
  intro hall
  have hshown : ∀ d ∈ sameName, Engine.render {} d.content .empty = .ok d.content := by
    decide +kernel
  have hdifferent : (sameName.map fun d => FilePath.components d.path).Nodup := by decide +kernel
  have hrun : standard.run ⟨{}, .empty, some ['o']⟩ ⟨sameName, FileMap.empty⟩ = _ :=
    run_standard_of_forall hshown .empty
  obtain ⟨t, ht, hfile⟩ := hall _ _ _ _ _ _ _ hdifferent hrun _ List.mem_cons_self
  have hown : Engine.render {} ['1'] .empty = .ok ['1'] := by decide +kernel
  have hother : (FileMap.empty.writeAll ['o'] (sameName.map fun d => d.resolved d.content)).get?
      ['o', '/', 'a'] = some ['2'] := by decide +kernel
  obtain rfl := Except.ok.inj (hown.symm.trans ht)
  exact absurd (hother.symm.trans hfile) (by decide)

end Pipeline

end DocTemplate
