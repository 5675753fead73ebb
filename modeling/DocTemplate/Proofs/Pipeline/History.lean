import DocTemplate.Proofs.Pipeline.Standard

/-!
# Only rendered documents are written

A pipeline may be put together from the stages that render and write documents and from any others
that change nothing but contents, and it may be run again and again on what a run has left, also
where that run was stopped. What holds at the start and is kept by each of these stages holds of all
that they find. In this way a document is marked only by a stage that renders it, so each document
that is ever written has been rendered before, in the same run or in an earlier one.
-/

namespace DocTemplate

namespace Stage

/-- The stage changes nothing but contents, whether it stops or not: the files, the paths of the
documents and their marks stay. -/
structure ChangesContentsOnly (s : Stage FileMap) : Prop where
  /-- The files stay. -/
  files : ∀ c b, (s.process c b).1.files = b.files
  /-- The paths of the documents and their marks stay. -/
  documents : ∀ c b, (s.process c b).1.documents.map (fun d => (d.path, d.rendered)) =
    b.documents.map fun d => (d.path, d.rendered)

/-- The stages that a pipeline is put together from. -/
inductive IsUsual : Stage FileMap → Prop
  /-- The stage that renders documents. -/
  | rendering : IsUsual .rendering
  /-- The stage that writes documents. -/
  | writing : IsUsual .writing
  /-- Any stage that changes nothing but contents. -/
  | custom {s : Stage FileMap} (h : s.ChangesContentsOnly) : IsUsual s

/-- Behind the rendering stage a document is what it was, or it has been rendered. -/
theorem getElem?_renderDocuments {c : Context} {documents : List Document} {n : Nat}
    {d' : Document} (h : (renderDocuments c documents).1[n]? = some d') :
    documents[n]? = some d' ∨
      ∃ d t, documents[n]? = some d ∧ c.engine.render d.content c.vars = .ok t ∧
        d' = d.resolved t := by
  induction documents generalizing n with
  | nil => exact Or.inl h
  | cons d rest ih =>
    rw [renderDocuments] at h
    cases hrender : c.engine.render d.content c.vars with
    | error failure =>
      rw [Document.render, hrender] at h
      exact Or.inl h
    | ok t =>
      rw [Document.render, hrender] at h
      cases n with
      | zero => exact Or.inr ⟨d, t, rfl, hrender, (Option.some.inj h).symm⟩
      | succ n => exact ih h

/-- Documents are written up to the first one that has not been rendered, and there the writing
stops. -/
theorem writeDocuments_eq (directory : FilePath) (documents : List Document) (files : FileMap) :
    writeDocuments directory documents files =
      (files.writeAll directory (documents.takeWhile Document.rendered),
        (documents.dropWhile Document.rendered).head?.map fun d =>
          .stage writingName (unrenderedReason d)) := by
  induction documents generalizing files with
  | nil => rfl
  | cons d rest ih =>
    rw [writeDocuments]
    cases hd : d.rendered with
    | true =>
      rw [if_pos rfl, List.takeWhile_cons_of_pos hd, List.dropWhile_cons_of_pos hd]
      exact ih _
    | false =>
      have hnot : ¬ d.rendered = true := by simp [hd]
      rw [if_neg (by simp), List.takeWhile_cons_of_neg hnot, List.dropWhile_cons_of_neg hnot]
      rfl

/-- The writing stage changes no document. -/
theorem documents_process_writing (c : Context) (b : Batch FileMap) :
    (writing.process c b).1.documents = b.documents := by
  obtain ⟨engine, vars, output⟩ := c
  cases output with
  | none => rfl
  | some directory => rfl

end Stage

/-- A stage at work: what it is given. -/
structure Invocation where
  /-- The stage. -/
  stage : Stage FileMap
  /-- What all stages of the run know. -/
  context : Context
  /-- The documents and the files in front of it. -/
  before : Batch FileMap

namespace Invocation

/-- The documents and the files behind the stage, and why it stopped early if it did. -/
def outcome (i : Invocation) : Batch FileMap × Option PipelineError :=
  i.stage.process i.context i.before

/-- The rendering stage is at work, and it renders the document of a path at a position. -/
def Renders (i : Invocation) (n : Nat) (path : FilePath) : Prop :=
  i.stage = .rendering ∧
    ∃ d t, i.before.documents[n]? = some d ∧ d.path = path ∧
      i.context.engine.render d.content i.context.vars = .ok t ∧
      i.outcome.1.documents[n]? = some (d.resolved t)

/-- What is there behind stages that have been at work: what the last of them has left. -/
def left (start : Batch FileMap) (past : List Invocation) : Batch FileMap :=
  (past.getLast?.map fun i => i.outcome.1).getD start

end Invocation

namespace Pipeline

/-- The stages that a run puts to work, one behind the other up to the first one that stops
early. -/
def invocations (c : Context) : List (Stage FileMap) → Batch FileMap → List Invocation
  | [], _ => []
  | s :: rest, b =>
    ⟨s, c, b⟩ ::
      match s.process c b with
      | (after, none) => invocations c rest after
      | (_, some _) => []

end Pipeline

/-- What may happen to documents and files: a pipeline is put together, starting with none or with
the standard one, and it is run, in any order and any number of times. A history leads to a
pipeline, to the documents and files at that time, and to all stages that have been at work. An
insertion that fails leaves the pipeline as it is, and a run that is stopped leaves what it has
done. -/
inductive History (documents : List Document) (files : FileMap) :
    Pipeline FileMap → Batch FileMap → List Invocation → Prop
  /-- There are no stages yet. -/
  | empty : History documents files .empty ⟨documents, files⟩ []
  /-- There are the standard stages. -/
  | standard : History documents files .standard ⟨documents, files⟩ []
  /-- A stage is added. -/
  | add {p : Pipeline FileMap} {b : Batch FileMap} {past : List Invocation} {s : Stage FileMap}
      (h : History documents files p b past) (hs : s.IsUsual) :
      History documents files (p.add s) b past
  /-- A stage is put in front of another one, if there is one of the name. -/
  | insertBefore {p : Pipeline FileMap} {b : Batch FileMap} {past : List Invocation}
      {s : Stage FileMap} (h : History documents files p b past) (hs : s.IsUsual) (name : Text) :
      History documents files ((p.insertBefore name s).toOption.getD p) b past
  /-- A stage is put behind another one, if there is one of the name. -/
  | insertAfter {p : Pipeline FileMap} {b : Batch FileMap} {past : List Invocation}
      {s : Stage FileMap} (h : History documents files p b past) (hs : s.IsUsual) (name : Text) :
      History documents files ((p.insertAfter name s).toOption.getD p) b past
  /-- The pipeline is run. -/
  | run {p : Pipeline FileMap} {b : Batch FileMap} {past : List Invocation}
      (h : History documents files p b past) (c : Context) :
      History documents files p (p.run c b).1 (past ++ Pipeline.invocations c p.stages b)

/-! ## What stays true of what is there -/

/-- What `P` says of the stages that have been at work and of what is there stays true whenever a
usual stage works. -/
def IsKept (P : List Invocation → Batch FileMap → Prop) : Prop :=
  ∀ ⦃past b⦄ ⦃s : Stage FileMap⦄, s.IsUsual → ∀ c, P past b →
    P (past ++ [⟨s, c, b⟩]) (s.process c b).1

/-- What each stage has found is as `P` says, with the stages that were at work in front of it. -/
def EachFinds (P : List Invocation → Batch FileMap → Prop) (past : List Invocation) : Prop :=
  ∀ front i back, past = front ++ i :: back → P front i.before

namespace EachFinds

variable {P : List Invocation → Batch FileMap → Prop} {past : List Invocation}

/-- No stage has been at work. -/
theorem nil : EachFinds P [] := by
  intro front i back hsplit
  cases front <;> cases hsplit

/-- One more stage is at work. -/
theorem snoc (hpast : EachFinds P past) {i : Invocation} (hi : P past i.before) :
    EachFinds P (past ++ [i]) := by
  intro front i' back hsplit
  rcases List.eq_nil_or_concat back with rfl | ⟨back, last, rfl⟩
  · obtain ⟨rfl, hlast⟩ := List.append_inj' hsplit rfl
    rw [← List.singleton_inj.mp hlast]
    exact hi
  · rw [List.concat_eq_append, ← List.cons_append, ← List.append_assoc] at hsplit
    exact hpast front i' back (List.append_inj' hsplit rfl).1

/-- What stays true is true of all that a run finds and of what it leaves. -/
theorem runStages (hP : IsKept P) {stages : List (Stage FileMap)}
    (hstages : ∀ s ∈ stages, s.IsUsual) (c : Context) {b : Batch FileMap}
    (hpast : EachFinds P past) (hb : P past b) :
    EachFinds P (past ++ Pipeline.invocations c stages b) ∧
      P (past ++ Pipeline.invocations c stages b) (Pipeline.runStages c stages b).1 := by
  induction stages generalizing b past with
  | nil =>
    rw [Pipeline.invocations, List.append_nil]
    exact ⟨hpast, hb⟩
  | cons s rest ih =>
    obtain ⟨hs, hrest⟩ := List.forall_mem_cons.mp hstages
    have hfirst : EachFinds P (past ++ [⟨s, c, b⟩]) := hpast.snoc hb
    have hafter := hP hs c hb
    rw [Pipeline.invocations, Pipeline.runStages]
    rcases hprocess : s.process c b with ⟨after, _ | stop⟩
    · rw [hprocess] at hafter
      have hall := ih hrest hfirst hafter
      rwa [List.append_assoc, List.singleton_append] at hall
    · rw [hprocess] at hafter
      exact ⟨hfirst, hafter⟩

end EachFinds

/-- Each stage finds what the one in front of it has left. -/
theorem isKept_left (start : Batch FileMap) :
    IsKept fun past b => b = Invocation.left start past := by
  intro past b s hs c hb
  rw [Invocation.left, List.getLast?_concat]
  rfl

/-! ## Marks are accounted for -/

/-- Every document that is marked has been rendered by one of the stages that have been at work. -/
def Batch.Accounted (past : List Invocation) (b : Batch FileMap) : Prop :=
  ∀ n d, b.documents[n]? = some d → d.rendered = true → ∃ r ∈ past, r.Renders n d.path

/-- A stage leaves marks that are accounted for, if it finds such marks. -/
theorem Batch.isKept_accounted : IsKept Batch.Accounted := by
  intro past b s hs c h
  have hbefore {n : Nat} {d : Document} (hd : b.documents[n]? = some d)
      (hmark : d.rendered = true) : ∃ r ∈ past ++ [⟨s, c, b⟩], r.Renders n d.path := by
    obtain ⟨r, hr, hrenders⟩ := h n d hd hmark
    exact ⟨r, List.mem_append_left _ hr, hrenders⟩
  intro n d' hd' hmark
  cases hs with
  | rendering =>
    rcases Stage.getElem?_renderDocuments hd' with hsame | ⟨d, t, hd, hrender, rfl⟩
    · exact hbefore hsame hmark
    · exact ⟨_, List.mem_append_right past List.mem_cons_self, rfl, d, t, hd, rfl, hrender, hd'⟩
  | writing =>
    rw [Stage.documents_process_writing] at hd'
    exact hbefore hd' hmark
  | custom hcustom =>
    have hkept := congrArg (fun kept => kept[n]?) (hcustom.documents c b)
    simp only [List.getElem?_map, hd', Option.map_some] at hkept
    obtain ⟨d, hd, heq⟩ := Option.map_eq_some_iff.mp hkept.symm
    obtain ⟨hpath, hrendered⟩ := Prod.mk.inj heq
    rw [← hpath]
    exact hbefore hd (hrendered.trans hmark)

namespace History

variable {documents : List Document} {files : FileMap} {p : Pipeline FileMap} {b : Batch FileMap}
  {past : List Invocation}

private theorem of_mem_insertAt {s t : Stage FileMap} {n : Nat}
    (h : t ∈ (p.insertAt n s).stages) : t = s ∨ t ∈ p.stages := by
  rw [Pipeline.insertAt, List.mem_append, List.mem_cons] at h
  rcases h with h | h | h
  · exact Or.inr (List.mem_of_mem_take h)
  · exact Or.inl h
  · exact Or.inr (List.mem_of_mem_drop h)

private theorem isUsual_of_insertion {s : Stage FileMap} (hs : s.IsUsual)
    (hp : ∀ t ∈ p.stages, t.IsUsual) (place : Nat → Nat) (position : Except PipelineError Nat) :
    ∀ t ∈ ((position.map fun n => p.insertAt (place n) s).toOption.getD p).stages,
      t.IsUsual := by
  intro t ht
  cases position with
  | error e => exact hp t ht
  | ok n =>
    rcases of_mem_insertAt ht with rfl | ht
    · exact hs
    · exact hp t ht

/-- A pipeline has no other stages than those that it was put together from. -/
theorem isUsual_of_mem (h : History documents files p b past) : ∀ s ∈ p.stages, s.IsUsual := by
  induction h with
  | empty => simp [Pipeline.empty]
  | standard =>
    intro s hs
    rcases List.mem_cons.mp hs with rfl | hs
    · exact .rendering
    · rw [List.mem_singleton.mp hs]
      exact .writing
  | add h hs ih =>
    intro t ht
    rcases List.mem_append.mp ht with ht | ht
    · exact ih t ht
    · rw [List.mem_singleton.mp ht]
      exact hs
  | insertBefore h hs name ih => exact isUsual_of_insertion hs ih (fun n => n) _
  | insertAfter h hs name ih => exact isUsual_of_insertion hs ih (fun n => n + 1) _
  | run h c ih => exact ih

/-- What is true in front of a history and stays true is true of all that stages have found and of
what is there. -/
theorem eachFinds {P : List Invocation → Batch FileMap → Prop} (hP : IsKept P)
    (hstart : P [] ⟨documents, files⟩) (h : History documents files p b past) :
    EachFinds P past ∧ P past b := by
  induction h with
  | empty => exact ⟨.nil, hstart⟩
  | standard => exact ⟨.nil, hstart⟩
  | add h hs ih => exact ih
  | insertBefore h hs name ih => exact ih
  | insertAfter h hs name ih => exact ih
  | run h c ih => exact ih.1.runStages hP h.isUsual_of_mem c ih.2

/-- Documents without marks are accounted for. -/
theorem accounted_start (hnew : ∀ d ∈ documents, d.rendered = false) (files : FileMap) :
    Batch.Accounted [] ⟨documents, files⟩ := by
  intro n d hd hmark
  rw [hnew d (List.mem_of_getElem? hd)] at hmark
  cases hmark

/-- Whenever the writing stage is at work, it writes documents up to the first one that has not been
rendered, where it stops, and each of those that it writes has been rendered by a stage that was at
work before. Without an output directory it does nothing. The stages at work are all that happens:
each one finds what the one in front of it has left, and what is there is what the last one has
left. -/
theorem rendered_before_written (h : History documents files p b past)
    (hnew : ∀ d ∈ documents, d.rendered = false) {front back : List Invocation} {i : Invocation}
    (hpast : past = front ++ i :: back) (hwriting : i.stage = .writing) :
    (i.before = Invocation.left ⟨documents, files⟩ front ∧
        b = Invocation.left ⟨documents, files⟩ past) ∧
      (i.context.output = none → i.outcome = (i.before, none)) ∧
      ∀ directory, i.context.output = some directory →
        ∃ written rest, i.before.documents = written ++ rest ∧
          i.outcome = (⟨i.before.documents, i.before.files.writeAll directory written⟩,
            rest.head?.map fun d =>
              .stage Stage.writingName (Stage.unrenderedReason d)) ∧
          (∀ d ∈ rest.head?, d.rendered = false) ∧
          ∀ n d, written[n]? = some d → ∃ r ∈ front, r.Renders n d.path := by
  have haccounted : i.before.Accounted front :=
    (h.eachFinds Batch.isKept_accounted (accounted_start hnew files)).1 front i back hpast
  have hleft := h.eachFinds (isKept_left ⟨documents, files⟩) rfl
  refine ⟨⟨hleft.1 front i back hpast, hleft.2⟩, ?_⟩
  obtain ⟨stage, ⟨engine, vars, output⟩, before⟩ := i
  obtain rfl : stage = .writing := hwriting
  constructor
  · rintro rfl
    rfl
  · rintro directory rfl
    refine ⟨before.documents.takeWhile Document.rendered,
      before.documents.dropWhile Document.rendered, List.takeWhile_append_dropWhile.symm, ?_, ?_,
      ?_⟩
    · rw [Invocation.outcome, Stage.process_writing, Stage.writeDocuments_eq]
    · intro d hd
      have hnot := List.head?_dropWhile_not Document.rendered before.documents
      rwa [Option.mem_def.mp hd] at hnot
    · intro n d hd
      have hmark : d.rendered = true :=
        List.all_eq_true.mp List.all_takeWhile d (List.mem_of_getElem? hd)
      have hbefore : before.documents[n]? = some d := by
        rw [← List.takeWhile_append_dropWhile (p := Document.rendered) (l := before.documents),
          List.getElem?_append_left (List.getElem?_eq_some_iff.mp hd).1]
        exact hd
      exact haccounted n d hbefore hmark

/-- A stage that marks the end of every content. -/
def signing : Stage FileMap where
  name := ['s']
  process _ b :=
    (⟨b.documents.map fun d => { d with content := d.content ++ ['.'] }, b.files⟩, none)

/-- Signing changes contents only. -/
theorem changesContentsOnly_signing : signing.ChangesContentsOnly :=
  ⟨fun _ _ => rfl, fun _ b => by simp [signing]⟩

/-- Two documents. -/
def pair : List Document := [⟨['a'], ['1'], false⟩, ⟨['b'], ['2'], false⟩]

/-- A stage at work on documents that are to be written to an empty directory. -/
def atWork (s : Stage FileMap) (documents : List Document) : Invocation :=
  ⟨s, ⟨{}, .empty, some ['o']⟩, ⟨documents, .empty⟩⟩

/-- A first run stops because nothing has been rendered. Once the rendering stage is put in front of
the writing one, and another stage between them, a second run writes both documents, and it has
rendered them before. An insertion beside a stage that is not there changes nothing. -/
theorem rendered_before_written_second_run :
    ∃ (p : Pipeline FileMap) (b : Batch FileMap) (front : List Invocation) (i : Invocation),
      History pair .empty p b (front ++ [i]) ∧ i.stage = .writing ∧
      (∃ stop, front.head?.map Invocation.outcome = some (⟨pair, .empty⟩, some stop)) ∧
      ∃ written, i.before.documents = written ∧ written.map Document.path = [['a'], ['b']] ∧
        i.outcome = (⟨written, i.before.files.writeAll ['o'] written⟩, none) ∧
        ∀ n d, written[n]? = some d → ∃ r ∈ front, r.Renders n d.path := by
  have hshown : ∀ d ∈ pair, Engine.render {} d.content .empty = .ok d.content := by
    decide +kernel
  have hrender : Stage.rendering.process ⟨{}, .empty, some ['o']⟩ (⟨pair, .empty⟩ : Batch FileMap) =
      (⟨pair.map fun d => d.resolved d.content, .empty⟩, none) := by
    rw [Stage.process_rendering, Stage.renderDocuments_of_forall hshown]
  have hstart : History pair .empty .empty ⟨pair, .empty⟩ [] := .empty
  have hstages := (((hstart.add .writing).run ⟨{}, .empty, some ['o']⟩).insertBefore .rendering
    Stage.writingName).insertAfter (.custom changesContentsOnly_signing) "liquid".toList
  have hruns := (hstages.insertBefore .writing ['x']).run ⟨{}, .empty, some ['o']⟩
  have hsecond : Pipeline.invocations ⟨{}, .empty, some ['o']⟩ [.rendering, signing, .writing]
        ⟨pair, .empty⟩ =
      [atWork .rendering pair, atWork signing (pair.map fun d => d.resolved d.content),
        atWork .writing (pair.map fun d => d.resolved (d.content ++ ['.']))] := by
    rw [Pipeline.invocations, hrender]
    rfl
  have hpast : [atWork .writing pair] ++ Pipeline.invocations ⟨{}, .empty, some ['o']⟩
        [.rendering, signing, .writing] ⟨pair, .empty⟩ =
      [atWork .writing pair, atWork .rendering pair,
          atWork signing (pair.map fun d => d.resolved d.content)] ++
        [atWork .writing (pair.map fun d => d.resolved (d.content ++ ['.']))] :=
    congrArg ([atWork .writing pair] ++ ·) hsecond
  obtain ⟨-, -, hwritten⟩ := rendered_before_written hruns (by decide) hpast rfl
  obtain ⟨written, rest, hbefore, houtcome, -, hrendered⟩ := hwritten ['o'] rfl
  have hrest : rest = [] := by
    have hstop := congrArg Prod.snd houtcome
    cases rest with
    | nil => rfl
    | cons d rest => cases hstop
  rw [hrest, List.append_nil] at hbefore
  subst hbefore
  exact ⟨_, _, _, _, hpast ▸ hruns, rfl, ⟨_, rfl⟩, _, rfl, rfl, rfl, hrendered⟩

end History

end DocTemplate
