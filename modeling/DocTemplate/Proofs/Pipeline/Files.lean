import DocTemplate.Pipeline
import DocTemplate.Proofs.OutputPath

/-!
# What writing documents leaves in the files

Files that take everything hold a document under its place in the output directory, until another
document with the same place is written. So behind a run over documents each of these places holds
the last document that belongs there, and every other file is what it was.
-/

namespace DocTemplate

namespace FileMap

/-- The files behind the writing of documents, one behind the other. -/
def writeAll (directory : FilePath) (files : FileMap) (documents : List Document) : FileMap :=
  documents.foldl
    (fun files d => files.write (FilePath.join directory d.outputPath) d.content) files

variable {directory : FilePath}

/-- The first document is written before the others. -/
theorem writeAll_cons (files : FileMap) (d : Document) (rest : List Document) :
    files.writeAll directory (d :: rest) =
      (files.write (FilePath.join directory d.outputPath) d.content).writeAll directory rest := rfl

/-- Documents in a row are written in a row. -/
theorem writeAll_append (files : FileMap) (front back : List Document) :
    files.writeAll directory (front ++ back) =
      (files.writeAll directory front).writeAll directory back := List.foldl_append

/-- A file that is the place of none of the documents stays as it is. -/
theorem get?_writeAll_of_forall_ne {documents : List Document} {q : FilePath}
    (h : ∀ d ∈ documents, q ≠ FilePath.join directory d.outputPath) (files : FileMap) :
    (files.writeAll directory documents).get? q = files.get? q := by
  induction documents generalizing files with
  | nil => rfl
  | cons d rest ih =>
    obtain ⟨hd, hrest⟩ := List.forall_mem_cons.mp h
    rw [writeAll_cons, ih hrest, get?_write, if_neg hd]

/-- The place of a document holds it if no later one belongs there. -/
theorem get?_writeAll_append {d : Document} {back : List Document}
    (h : ∀ d' ∈ back, d'.outputPath ≠ d.outputPath) (files : FileMap) (front : List Document) :
    (files.writeAll directory (front ++ d :: back)).get? (FilePath.join directory d.outputPath) =
      some d.content := by
  have hback : ∀ d' ∈ back,
      FilePath.join directory d.outputPath ≠ FilePath.join directory d'.outputPath :=
    fun d' hd' heq => h d' hd' ((Document.join_outputPath_eq_iff directory d d').mp heq).symm
  rw [writeAll_append, writeAll_cons, get?_writeAll_of_forall_ne hback, get?_write, if_pos rfl]

end FileMap

/-- The last of the documents with a place in the output directory. -/
def IsLastAt (documents : List Document) (place : FilePath) (d : Document) : Prop :=
  ∃ front back, documents = front ++ d :: back ∧ d.outputPath = place ∧
    ∀ d' ∈ back, d'.outputPath ≠ place

/-- There is a last document for the place of every document. -/
theorem exists_isLastAt {documents : List Document} {place : FilePath}
    (h : place ∈ documents.map Document.outputPath) : ∃ d, IsLastAt documents place d := by
  induction documents with
  | nil => cases h
  | cons d rest ih =>
    by_cases hrest : place ∈ rest.map Document.outputPath
    · obtain ⟨last, front, back, rfl, hlast, hback⟩ := ih hrest
      exact ⟨last, d :: front, back, rfl, hlast, hback⟩
    · rw [List.map_cons, List.mem_cons] at h
      refine ⟨d, [], rest, rfl, (h.resolve_right hrest).symm, ?_⟩
      rintro d' hd' rfl
      exact hrest (List.mem_map_of_mem hd')

/-- The files `written` are the files `files` with documents written on top of them: each place of a
document holds the last document for it, and nothing else has changed. -/
structure HoldsDocuments (directory : FilePath) (documents : List Document)
    (files written : FileMap) : Prop where
  /-- A file that is no place of a document is what it was. -/
  others : ∀ q, (∀ d ∈ documents, q ≠ FilePath.join directory d.outputPath) →
    written.get? q = files.get? q
  /-- Every place of a document holds the last document for it. -/
  places : ∀ place ∈ documents.map Document.outputPath, ∃ d, IsLastAt documents place d ∧
    written.get? (FilePath.join directory place) = some d.content

/-- Files behind the writing of documents hold these. -/
theorem holdsDocuments_writeAll (directory : FilePath) (documents : List Document)
    (files : FileMap) :
    HoldsDocuments directory documents files (files.writeAll directory documents) := by
  refine ⟨fun q hq => FileMap.get?_writeAll_of_forall_ne hq files, fun place hplace => ?_⟩
  obtain ⟨d, front, back, rfl, rfl, hback⟩ := exists_isLastAt hplace
  exact ⟨d, ⟨front, back, rfl, rfl, hback⟩, FileMap.get?_writeAll_append hback files front⟩

/-- Documents whose tags have been resolved are all written to files that take everything. -/
theorem Stage.writeDocuments_of_rendered {documents : List Document}
    (h : ∀ d ∈ documents, d.rendered = true) (directory : FilePath) (files : FileMap) :
    writeDocuments directory documents files = (files.writeAll directory documents, none) := by
  induction documents generalizing files with
  | nil => rfl
  | cons d rest ih =>
    obtain ⟨hd, hrest⟩ := List.forall_mem_cons.mp h
    rw [writeDocuments, if_pos hd]
    exact ih hrest _

end DocTemplate
