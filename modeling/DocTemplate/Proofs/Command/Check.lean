import DocTemplate.Command.Run
import DocTemplate.Proofs.Engine.Fault
import Mathlib.Data.List.Forall2

/-!
# Checking agrees with rendering

Checking reports just the documents whose source is at fault, in order, each with the failure that
every rendering with the same settings ends with; one document does not change what is said of
another. A document that is not reported has a tree, so nothing but an unknown filter keeps it from
being rendered.
-/

namespace DocTemplate

/-- The report on a document that a rendering with some variables finds to be at fault itself. -/
def Document.fault? (e : Engine) (vars : Variables) (d : Document) : Option Report :=
  match e.render d.content vars with
  | .ok _ => none
  | .error f => if f.cause.isOfSource then some ⟨f.message d.path, d.path⟩ else none

/-- The report on a document is the same with any filters, and with or without rendering. -/
theorem Document.report?_eq_fault? (e : Engine) (filters : Filters) (vars : Variables)
    (d : Document) : d.report? e = d.fault? ⟨e.settings, filters⟩ vars := by
  unfold report? fault? Engine.parse
  cases hnodes : Engine.parseNodes e.settings d.content with
  | error failure =>
    rw [Engine.render_of_parseNodes_error hnodes]
    exact (if_pos (Engine.isOfSource_of_parseNodes hnodes)).symm
  | ok nodes =>
    cases hrender : Engine.render ⟨e.settings, filters⟩ d.content vars with
    | ok shown => rfl
    | error failure =>
      obtain ⟨name, -, -, tag, hcause⟩ := Engine.exists_filterName_of_render hnodes hrender
      exact (if_neg (by simp [hcause, Cause.isOfSource])).symm

/-- A document that is not reported has a tree. -/
theorem Document.exists_nodes_of_report?_eq_none {e : Engine} {d : Document}
    (h : d.report? e = none) :
    ∃ nodes, Engine.parseNodes e.settings d.content = .ok nodes := by
  unfold report? Engine.parse at h
  cases hnodes : Engine.parseNodes e.settings d.content with
  | error failure =>
    rw [hnodes] at h
    cases h
  | ok nodes => exact ⟨nodes, rfl⟩

/-- A report names the document that it is about. -/
theorem Document.path_of_report? {e : Engine} {d : Document} {r : Report}
    (h : d.report? e = some r) : r.path = d.path := by
  unfold report? at h
  split at h
  · cases h
  · cases h
    rfl

/-- A document has a tree, and only a filter that the tree names and that is not registered keeps it
from being rendered. -/
def Document.FailsOnlyByFilters (settings : Settings) (d : Document) : Prop :=
  ∃ nodes, Engine.parseNodes settings d.content = .ok nodes ∧
    ∀ (filters : Filters) (vars : Variables),
      (∀ failure, Engine.render ⟨settings, filters⟩ d.content vars = .error failure →
        ∃ name ∈ Node.filterNamesAll nodes, filters.find? name = none ∧
          ∃ tag, failure.cause = .unknownFilter name tag filters.names) ∧
      ((∀ name ∈ Node.filterNamesAll nodes, filters.find? name ≠ none) →
        ∃ shown, Engine.render ⟨settings, filters⟩ d.content vars = .ok shown)

/-- A document that is not reported fails only by filters. -/
theorem Document.failsOnlyByFilters_of_report?_eq_none {e : Engine} {d : Document}
    (h : d.report? e = none) : d.FailsOnlyByFilters e.settings := by
  obtain ⟨nodes, hnodes⟩ := exists_nodes_of_report?_eq_none h
  exact ⟨nodes, hnodes, fun filters vars =>
    ⟨fun failure hrender => Engine.exists_filterName_of_render hnodes hrender,
      fun hfilters => Engine.exists_render_eq_ok hnodes hfilters vars⟩⟩

namespace CheckCommand

/-- The documents are what the paths are read as, one for each path. -/
def Reads (look : FileLookup) (paths : List FilePath) (documents : List Document) : Prop :=
  List.Forall₂ (fun p d => Document.load look p = .ok d) paths documents

/-- Documents that can all be read are all checked, and the reports follow their order. -/
theorem checkAll_of_reads (engine : Engine) {look : FileLookup} {paths : List FilePath}
    {documents : List Document} (h : Reads look paths documents) :
    checkAll engine look paths = (documents.filterMap (Document.report? engine), none) := by
  induction h with
  | nil => rfl
  | @cons p d paths documents hload _ ih =>
    rw [checkAll, hload, ih, List.filterMap_cons]
    dsimp only
    cases d.report? engine <;> rfl

/-- What is said of a check with reports. -/
def countMessage (reports documents : Nat) : Text :=
  Text.ofNat reports ++ " of ".toList ++ countText documents ++ " have errors".toList

/-- What a command says that checks documents which can all be read: it fails if it has something to
report. -/
theorem run_of_reads {σ : Type} {c : CheckCommand} {s : Surroundings} {config : Config}
    {documents : List Document} (hconfig : s.config c.configFile = .ok config)
    (hreads : Reads s.look c.inputs documents) (files : σ) {reports : List Report}
    (hreports : documents.filterMap (Document.report? ⟨config.settings, .standard⟩) = reports) :
    (c.run s files).reports = reports ∧ (c.run s files).trouble =
      if reports = [] then none
      else some { message := countMessage reports.length documents.length } := by
  rw [run, hconfig]
  dsimp only
  rw [checkAll_of_reads _ hreads, hreports, ← hreads.length_eq]
  cases reports <;> exact ⟨rfl, rfl⟩

/-- The outcome of a check of documents is what rendering them says. -/
structure AgreesWithRendering {σ : Type} (settings : Settings) (documents : List Document)
    (o : Outcome σ) : Prop where
  /-- Just the documents at fault are reported, in order, whatever they are rendered with. -/
  reports : ∀ filters vars,
    o.reports = documents.filterMap (Document.fault? ⟨settings, filters⟩ vars)
  /-- The check succeeds if there is nothing to report. -/
  succeeds_iff : o.trouble = none ↔ o.reports = []
  /-- Otherwise it counts the reports. -/
  count : o.reports ≠ [] →
    o.trouble = some { message := countMessage o.reports.length documents.length }
  /-- A document without a report fails only by filters. -/
  passing : ∀ d ∈ documents, (∀ r ∈ o.reports, r.path ≠ d.path) → d.FailsOnlyByFilters settings

/-- A command that checks documents which can all be read agrees with rendering them: it reports
each document at fault once, in order, with the failure that rendering ends with, and a document
without a report can be rendered unless it names a filter that is not registered. -/
theorem agreesWithRendering_run {σ : Type} (c : CheckCommand) (s : Surroundings) (files : σ)
    (config : Config) (documents : List Document) (hconfig : s.config c.configFile = .ok config)
    (hreads : Reads s.look c.inputs documents) :
    AgreesWithRendering config.settings documents (c.run s files) := by
  obtain ⟨hreports, htrouble⟩ := run_of_reads hconfig hreads files rfl
  rw [← hreports] at htrouble
  refine ⟨fun filters vars => ?_, ?_, fun hne => ?_, fun d hd hpasses => ?_⟩
  · rw [hreports, funext (Document.report?_eq_fault? _ filters vars)]
  · rw [htrouble]
    simp
  · rw [htrouble, if_neg hne]
  · have hnone : d.report? ⟨config.settings, .standard⟩ = none := by
      cases hreport : d.report? ⟨config.settings, .standard⟩ with
      | none => rfl
      | some r =>
        have hmem : r ∈ (c.run s files).reports := by
          rw [hreports]
          exact List.mem_filterMap.mpr ⟨d, hd, hreport⟩
        exact absurd (Document.path_of_report? hreport) (hpasses r hmem)
    exact Document.failsOnlyByFilters_of_report?_eq_none hnone

/-- Three documents: an opener without a closer, an unknown filter, and the end of a loop that
nobody has opened. -/
def mixedDocuments : List Document :=
  [⟨"a".toList, "\x7b\x7b x".toList, false⟩, ⟨"b".toList, "{{ x | f }}".toList, false⟩,
    ⟨"c".toList, "\n{% endfor %}".toList, false⟩]

/-- A place where the three documents are the only files. -/
def mixedSurroundings : Surroundings where
  look p := match mixedDocuments.find? (·.path == p) with
    | some d => .ok (.file d.content)
    | none => .error .notFound
  workingDirectory := ['/']
  environment := []

/-- The first and the last of the documents are reported. The one between them may be rendered with
filters that it does not find in the standard ones. -/
theorem agreesWithRendering_run_mixed :
    ((CheckCommand.mk (mixedDocuments.map Document.path) none).run mixedSurroundings ()).reports =
        [⟨"a:1:1: unterminated `\x7b\x7b` (no matching `\x7d\x7d`) near `\x7b\x7b x`".toList,
            "a".toList⟩,
          ⟨"c:2:1: `endfor` without an open `for`: `{% endfor %}`".toList, "c".toList⟩] ∧
      AgreesWithRendering {} mixedDocuments
        ((CheckCommand.mk (mixedDocuments.map Document.path) none).run mixedSurroundings ()) :=
  ⟨by decide +kernel, agreesWithRendering_run _ mixedSurroundings () {} mixedDocuments
    (by decide +kernel) (.cons rfl (.cons rfl (.cons rfl .nil)))⟩

end CheckCommand

end DocTemplate
