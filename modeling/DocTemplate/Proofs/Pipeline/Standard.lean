import DocTemplate.Proofs.Pipeline.Files
import Mathlib.Data.List.Basic

/-!
# The standard pipeline writes all documents or none

All documents are rendered before the first one is written, so a document that fails keeps every
file as it was. The documents in front of it are rendered by then, and those behind it are not.
-/

namespace DocTemplate

/-- The document with the text that its tags are resolved to. -/
def Document.resolved (d : Document) (t : Text) : Document :=
  { d with content := t, rendered := true }

namespace Stage

section Process

variable {σ : Type}

/-- The stage that resolves tags changes no file. -/
theorem process_rendering (c : Context) (b : Batch σ) :
    rendering.process c b =
      (⟨(renderDocuments c b.documents).1, b.files⟩, (renderDocuments c b.documents).2) := rfl

/-- The stage that writes documents changes no document. -/
theorem process_writing [Storage σ] (engine : Engine) (vars : Variables) (directory : FilePath)
    (b : Batch σ) :
    writing.process ⟨engine, vars, some directory⟩ b =
      (⟨b.documents, (writeDocuments directory b.documents b.files).1⟩,
        (writeDocuments directory b.documents b.files).2) := rfl

end Process

variable {c : Context} {text : Document → Text} {front : List Document}
  (hfront : ∀ d ∈ front, c.engine.render d.content c.vars = .ok (text d))

include hfront

/-- Documents that render are rendered, whatever becomes of those behind them. -/
theorem renderDocuments_append (rest : List Document) :
    renderDocuments c (front ++ rest) =
      (front.map (fun d => d.resolved (text d)) ++ (renderDocuments c rest).1,
        (renderDocuments c rest).2) := by
  induction front with
  | nil => rfl
  | cons d front ih =>
    obtain ⟨hd, hfront⟩ := List.forall_mem_cons.mp hfront
    have hrender : d.render c.engine c.vars = .ok (d.resolved (text d)) := by
      rw [Document.render, hd]
      rfl
    rw [List.cons_append, renderDocuments, hrender]
    dsimp only
    rw [ih hfront]
    rfl

/-- Documents that all render are all rendered. -/
theorem renderDocuments_of_forall :
    renderDocuments c front = (front.map fun d => d.resolved (text d), none) := by
  have hall := renderDocuments_append hfront []
  rwa [List.append_nil, renderDocuments, List.append_nil] at hall

/-- The first document that fails stays as it is, and so do those behind it. -/
theorem renderDocuments_of_error {d : Document} {failure : Failure}
    (hd : c.engine.render d.content c.vars = .error failure) (back : List Document) :
    renderDocuments c (front ++ d :: back) =
      (front.map (fun d => d.resolved (text d)) ++ d :: back, some (.document d.path failure)) := by
  have hrender : d.render c.engine c.vars = .error failure := by
    rw [Document.render, hd]
    rfl
  rw [renderDocuments_append hfront, renderDocuments, hrender]

end Stage

namespace Pipeline

section Run

variable {σ : Type}

/-- A single stage is run by itself. -/
theorem runStages_singleton (c : Context) (s : Stage σ) (b : Batch σ) :
    runStages c [s] b = s.process c b := by
  rw [runStages]
  rcases s.process c b with ⟨after, _ | stop⟩ <;> rfl

variable [Storage σ] {c : Context} {b : Batch σ} {documents : List Document}

/-- The documents are written as they are when all of them have been rendered. -/
theorem run_standard_of_rendered (h : Stage.renderDocuments c b.documents = (documents, none)) :
    standard.run c b = Stage.writing.process c ⟨documents, b.files⟩ := by
  rw [run, standard, runStages, Stage.process_rendering, h]
  exact runStages_singleton c Stage.writing _

/-- Nothing is written when the rendering stops. -/
theorem run_standard_of_stopped {stop : PipelineError}
    (h : Stage.renderDocuments c b.documents = (documents, some stop)) :
    standard.run c b = (⟨documents, b.files⟩, some stop) := by
  rw [run, standard, runStages, Stage.process_rendering, h]

end Run

/-- What the standard pipeline does to documents that it writes to a directory of files that take
everything. If all of them render, all are rendered and written, a later one over an earlier one
with the same place. If not, the first one that fails ends the run: those in front of it are
rendered, it and those behind it stay what they are, and no file changes. -/
theorem run_standard (engine : Engine) (vars : Variables) (directory : FilePath)
    (documents : List Document) (files : FileMap) :
    (∀ text : Document → Text,
      (∀ d ∈ documents, engine.render d.content vars = .ok (text d)) →
      ∃ written,
        standard.run ⟨engine, vars, some directory⟩ ⟨documents, files⟩ =
          (⟨documents.map fun d => d.resolved (text d), written⟩, none) ∧
        HoldsDocuments directory (documents.map fun d => d.resolved (text d)) files written) ∧
    ∀ (text : Document → Text) (front back : List Document) (d : Document) (failure : Failure),
      documents = front ++ d :: back →
      (∀ e ∈ front, engine.render e.content vars = .ok (text e)) →
      engine.render d.content vars = .error failure →
      standard.run ⟨engine, vars, some directory⟩ ⟨documents, files⟩ =
        (⟨front.map (fun e => e.resolved (text e)) ++ d :: back, files⟩,
          some (.document d.path failure)) := by
  constructor
  · intro text htext
    have hrender := Stage.renderDocuments_of_forall (c := ⟨engine, vars, some directory⟩) htext
    have hrendered : ∀ d ∈ documents.map fun d => d.resolved (text d), d.rendered = true := by
      intro d hd
      obtain ⟨d, -, rfl⟩ := List.mem_map.mp hd
      rfl
    refine ⟨files.writeAll directory (documents.map fun d => d.resolved (text d)), ?_,
      holdsDocuments_writeAll directory _ files⟩
    rw [run_standard_of_rendered hrender, Stage.process_writing,
      Stage.writeDocuments_of_rendered hrendered]
  · rintro text front back d failure rfl hfront hd
    exact run_standard_of_stopped (Stage.renderDocuments_of_error hfront hd back)

/-- Two documents with the same place in an output directory. -/
def samePlace : List Document := [⟨['a'], ['1'], false⟩, ⟨['/', 'b', '/', 'a'], ['2'], false⟩]

/-- A document that fails. -/
def misplacedEnd : Document := ⟨['c'], "{% endif %}".toList, false⟩

/-- A file at the place of the two documents. -/
def placeTaken : FileMap := ⟨[(['o', '/', 'a'], ['0'])]⟩

/-- The place holds the second document behind a run over both of them. With a document between them
that fails, the first is rendered and the place holds what it did before. -/
theorem run_standard_samePlace :
    (∃ written,
      standard.run ⟨{}, .empty, some ['o']⟩ ⟨samePlace, placeTaken⟩ =
        (⟨samePlace.map fun d => d.resolved d.content, written⟩, none) ∧
      HoldsDocuments ['o'] (samePlace.map fun d => d.resolved d.content) placeTaken written ∧
      written.get? ['o', '/', 'a'] = some ['2']) ∧
    standard.run ⟨{}, .empty, some ['o']⟩
        ⟨⟨['a'], ['1'], false⟩ :: misplacedEnd :: samePlace, placeTaken⟩ =
      (⟨⟨['a'], ['1'], true⟩ :: misplacedEnd :: samePlace, placeTaken⟩,
        some (.document ['c']
          ⟨.start, .misplaced "{% endif %}".toList .unmatchedEndCondition⟩)) := by
  constructor
  · obtain ⟨written, hrun, hholds⟩ :=
      (run_standard {} .empty ['o'] samePlace placeTaken).1 Document.content (by decide +kernel)
    refine ⟨written, hrun, hholds, ?_⟩
    have hfiles := congrArg (fun result => result.1.files.get? ['o', '/', 'a']) hrun
    exact hfiles.symm.trans (by decide +kernel)
  · exact (run_standard {} .empty ['o'] _ placeTaken).2 Document.content [⟨['a'], ['1'], false⟩]
      samePlace misplacedEnd _ rfl (by decide +kernel) (by decide +kernel)

end Pipeline

end DocTemplate
