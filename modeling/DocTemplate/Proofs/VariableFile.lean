import DocTemplate.Command.Run
import DocTemplate.Proofs.Variables

/-!
# Variables from several files

Files are read one behind the other, and the first one that cannot be read ends the reading. If all
can be read, a name has the whole value that the last file with that name gives it. So files that
are read behind others are as good as variables on top of theirs, and the files that a rendering
names itself decide before those of its configuration.
-/

namespace DocTemplate

/-- A result stays the same under another name of its failures. -/
theorem eq_ok_of_mapError {α ε ε' : Type} {f : ε → ε'} {x : Except ε α} {a : α}
    (h : x.mapError f = .ok a) : x = .ok a := by
  cases x with
  | error e => cases h
  | ok _ =>
    cases h
    rfl

/-- Both steps of a computation that comes through come through. -/
theorem exists_of_bind_eq_ok {α β ε : Type} {x : Except ε α} {f : α → Except ε β} {b : β}
    (h : x >>= f = .ok b) : ∃ a, x = .ok a ∧ f a = .ok b := by
  cases x with
  | error e => cases h
  | ok a => exact ⟨a, rfl, h⟩

namespace Variables

/-! ## One file -/

/-- The variables of a content are in order. -/
theorem inOrder_of_ofContent {path : FilePath} {content : Text} {vars : Variables}
    (h : ofContent path content = .ok vars) : vars.InOrder := by
  unfold ofContent at h
  dsimp only at h
  split at h
  · cases h
  · split at h
    · cases h
    · exact inOrder_of_ofYaml (eq_ok_of_mapError h)
  · split at h
    · cases h
    · exact inOrder_of_ofJson (eq_ok_of_mapError h)

variable {look : FileLookup} {paths : List FilePath}

/-- The variables of a file are in order. -/
theorem inOrder_of_ofFile {p : FilePath} {vars : Variables} (h : ofFile look p = .ok vars) :
    vars.InOrder := by
  unfold ofFile at h
  split at h
  · cases h
  · exact inOrder_of_ofContent h

/-- Nothing but the file itself matters for its variables. -/
theorem ofFile_eq_of_eq {look' : FileLookup} {p : FilePath} (h : look' p = look p) :
    ofFile look' p = ofFile look p := by
  rw [ofFile, ofFile, FileLookup.read, FileLookup.read, h]

/-- The file gives the name a value. -/
def Gives (look : FileLookup) (p : FilePath) (name : Text) (value : Value) : Prop :=
  ∃ vars, ofFile look p = .ok vars ∧ vars.get? name = some value

/-- What a file gives is among its variables. -/
theorem gives_iff {p : FilePath} {vars : Variables} (h : ofFile look p = .ok vars) {name : Text}
    {value : Value} : Gives look p name value ↔ vars.get? name = some value := by
  simp [Gives, h]

/-- The file gives the name some value. -/
def Defines (look : FileLookup) (name : Text) (p : FilePath) : Prop :=
  ∃ value, Gives look p name value

/-- The last of the files that define the name gives it the value. -/
def GivenLast (look : FileLookup) (paths : List FilePath) (name : Text) (value : Value) : Prop :=
  ∃ p, IsLast (Defines look name) paths p ∧ Gives look p name value

/-! ## Files one behind the other -/

/-- A file behind others is read if they are read, and what it gives is put on top of theirs. -/
theorem ofFiles_concat (look : FileLookup) (paths : List FilePath) (p : FilePath) :
    ofFiles look (paths ++ [p]) =
      (ofFiles look paths).bind fun below => (ofFile look p).map below.merge := by
  have hsingle (below : Variables) : [p].foldlM
      (fun vars path => (ofFile look path).map vars.merge) below =
        (ofFile look p).map below.merge := by
    rw [List.foldlM_cons]
    exact bind_pure _
  rw [ofFiles, List.foldlM_append]
  simp only [hsingle]
  rfl

/-- Files with one more behind them are read exactly if these and that one are. -/
theorem ofFiles_concat_eq_ok_iff {p : FilePath} {vars : Variables} :
    ofFiles look (paths ++ [p]) = .ok vars ↔ ∃ below above, ofFiles look paths = .ok below ∧
      ofFile look p = .ok above ∧ below.merge above = vars := by
  rw [ofFiles_concat]
  cases ofFiles look paths with
  | error e => simp [Except.bind]
  | ok below => cases ofFile look p <;> simp [Except.bind, Except.map]

/-- Files with one more behind them fail as they do, or as that one does if they are read. -/
theorem ofFiles_concat_eq_error_iff {p : FilePath} {e : VariableFileError} :
    ofFiles look (paths ++ [p]) = .error e ↔ ofFiles look paths = .error e ∨
      (∃ below, ofFiles look paths = .ok below) ∧ ofFile look p = .error e := by
  rw [ofFiles_concat]
  cases ofFiles look paths with
  | error e => simp [Except.bind]
  | ok below => cases ofFile look p <;> simp [Except.bind, Except.map]

/-- The variables of files are in order. -/
theorem inOrder_of_ofFiles {vars : Variables} (h : ofFiles look paths = .ok vars) :
    vars.InOrder := by
  induction paths using List.reverseRecOn generalizing vars with
  | nil =>
    cases h
    exact inOrder_empty
  | append_singleton paths p ih =>
    obtain ⟨below, above, hbelow, -, rfl⟩ := ofFiles_concat_eq_ok_iff.mp h
    exact (ih hbelow).merge above

/-- Files are read together exactly if each of them is. -/
theorem exists_ofFiles_eq_ok_iff :
    (∃ vars, ofFiles look paths = .ok vars) ↔ ∀ p ∈ paths, ∃ vars, ofFile look p = .ok vars := by
  induction paths using List.reverseRecOn with
  | nil => exact ⟨fun _ => nofun, fun _ => ⟨empty, rfl⟩⟩
  | append_singleton paths p ih =>
    rw [List.forall_mem_append, List.forall_mem_singleton, ← ih]
    simp only [ofFiles_concat_eq_ok_iff]
    constructor
    · rintro ⟨vars, below, above, hbelow, habove, -⟩
      exact ⟨⟨below, hbelow⟩, above, habove⟩
    · rintro ⟨⟨below, hbelow⟩, above, habove⟩
      exact ⟨below.merge above, below, above, hbelow, habove, rfl⟩

/-- Files fail together exactly as the first of them that cannot be read. -/
theorem ofFiles_eq_error_iff {e : VariableFileError} :
    ofFiles look paths = .error e ↔ ∃ front p back, paths = front ++ p :: back ∧
      (∀ q ∈ front, ∃ vars, ofFile look q = .ok vars) ∧ ofFile look p = .error e := by
  induction paths using List.reverseRecOn with
  | nil => simp [ofFiles, pure, Except.pure]
  | append_singleton paths p ih =>
    rw [ofFiles_concat_eq_error_iff, ih, exists_ofFiles_eq_ok_iff]
    constructor
    · rintro (⟨front, q, back, rfl, hfront, hq⟩ | ⟨hpaths, hp⟩)
      · exact ⟨front, q, back ++ [p], by simp, hfront, hq⟩
      · exact ⟨paths, p, [], rfl, hpaths, hp⟩
    · rintro ⟨front, q, back, h, hfront, hq⟩
      rcases List.eq_nil_or_concat' back with rfl | ⟨back, q', rfl⟩
      · obtain ⟨rfl, hpq⟩ := List.append_inj' h rfl
        obtain rfl := List.singleton_inj.mp hpq
        exact Or.inr ⟨hfront, hq⟩
      · rw [← List.cons_append, ← List.append_assoc] at h
        exact Or.inl ⟨front, q, back, (List.append_inj' h rfl).1, hfront, hq⟩

/-- A last file decides if it has the name, and otherwise those in front of it do. -/
theorem givenLast_concat_iff {p : FilePath} {name : Text} {value : Value} :
    GivenLast look (paths ++ [p]) name value ↔
      Gives look p name value ∨ ¬ Defines look name p ∧ GivenLast look paths name value := by
  simp only [GivenLast, isLast_concat_iff]
  constructor
  · rintro ⟨q, ⟨-, rfl⟩ | ⟨hp, hq⟩, hgives⟩
    · exact Or.inl hgives
    · exact Or.inr ⟨hp, q, hq, hgives⟩
  · rintro (hgives | ⟨hp, q, hq, hgives⟩)
    · exact ⟨p, Or.inl ⟨⟨value, hgives⟩, rfl⟩, hgives⟩
    · exact ⟨q, Or.inr ⟨hp, hq⟩, hgives⟩

/-- No file gives nothing. -/
theorem not_givenLast_nil {name : Text} {value : Value} : ¬ GivenLast look [] name value := by
  rintro ⟨p, ⟨front, back, hnil, -⟩, -⟩
  simp at hnil

/-- Files behind others decide if one of them has the name, and otherwise those in front do. -/
theorem givenLast_append_iff {paths' : List FilePath} {name : Text} {value : Value} :
    GivenLast look (paths ++ paths') name value ↔ GivenLast look paths' name value ∨
      (∀ p ∈ paths', ¬ Defines look name p) ∧ GivenLast look paths name value := by
  induction paths' using List.reverseRecOn with
  | nil => simp [not_givenLast_nil]
  | append_singleton paths' p ih =>
    rw [← List.append_assoc, givenLast_concat_iff, givenLast_concat_iff, ih,
      List.forall_mem_append, List.forall_mem_singleton]
    tauto

/-- A name has the value that the last of the files with that name gives it. -/
theorem get?_eq_some_iff_givenLast {vars : Variables} (h : ofFiles look paths = .ok vars)
    {name : Text} {value : Value} :
    vars.get? name = some value ↔ GivenLast look paths name value := by
  induction paths using List.reverseRecOn generalizing vars with
  | nil =>
    cases h
    constructor
    · nofun
    · exact fun hgiven => absurd hgiven not_givenLast_nil
  | append_singleton paths p ih =>
    obtain ⟨below, above, hbelow, habove, rfl⟩ := ofFiles_concat_eq_ok_iff.mp h
    rw [(inOrder_of_ofFile habove).get?_merge, givenLast_concat_iff, ← ih hbelow]
    simp only [Defines, gives_iff habove]
    cases above.get? name <;> simp

/-- A name is defined exactly if one of the files defines it. -/
theorem exists_givenLast_iff {name : Text} :
    (∃ value, GivenLast look paths name value) ↔ ∃ p ∈ paths, Defines look name p := by
  rw [← exists_isLast_iff]
  constructor
  · rintro ⟨value, p, hp, -⟩
    exact ⟨p, hp⟩
  · rintro ⟨p, hp⟩
    obtain ⟨value, hgives⟩ := hp.prop
    exact ⟨value, p, hp, hgives⟩

/-- Files behind others are as good as their variables on top of those of the others. -/
theorem ofFiles_append_eq_ok_iff {paths' : List FilePath} {vars : Variables} :
    ofFiles look (paths ++ paths') = .ok vars ↔ ∃ below above, ofFiles look paths = .ok below ∧
      ofFiles look paths' = .ok above ∧ below.merge above = vars := by
  induction paths' using List.reverseRecOn generalizing vars with
  | nil =>
    rw [List.append_nil]
    constructor
    · exact fun h => ⟨vars, empty, h, rfl, rfl⟩
    · rintro ⟨below, above, hbelow, ⟨⟩, rfl⟩
      exact hbelow
  | append_singleton paths' p ih =>
    rw [← List.append_assoc]
    simp only [ofFiles_concat_eq_ok_iff, ih]
    constructor
    · rintro ⟨_, third, ⟨below, above, hbelow, habove, rfl⟩, hthird, rfl⟩
      refine ⟨below, _, hbelow, ⟨above, third, habove, hthird, rfl⟩, ?_⟩
      exact (merge_assoc (inOrder_of_ofFiles hbelow) (inOrder_of_ofFiles habove)
        (inOrder_of_ofFile hthird)).symm
    · rintro ⟨below, _, hbelow, ⟨above, third, habove, hthird, rfl⟩, rfl⟩
      refine ⟨_, third, ⟨below, above, hbelow, habove, rfl⟩, hthird, ?_⟩
      exact merge_assoc (inOrder_of_ofFiles hbelow) (inOrder_of_ofFiles habove)
        (inOrder_of_ofFile hthird)

end Variables

/-! ## The files of a command -/

/-- A rendering that comes to its documents has read the files of its configuration and its own
behind them. -/
theorem RenderCommand.exists_ofFiles_of_prepare {c : RenderCommand} {s : Surroundings}
    {context : Context} {documents : List Document} (h : c.prepare s = .ok (context, documents)) :
    ∃ config, s.config c.configFile = .ok config ∧
      Variables.ofFiles s.look (config.variableFiles ++ c.variableFiles) = .ok context.vars := by
  unfold prepare at h
  obtain ⟨config, hconfig, h⟩ := exists_of_bind_eq_ok h
  obtain ⟨vars, hvars, h⟩ := exists_of_bind_eq_ok h
  obtain ⟨documents', -, h⟩ := exists_of_bind_eq_ok h
  cases h
  exact ⟨config, hconfig, eq_ok_of_mapError hvars⟩

/-- Of several variable files the last one with a name decides. -/
structure LastFileDecides (look : FileLookup) : Prop where
  /-- Files are read together exactly if each of them is. -/
  reads : ∀ paths, (∃ vars, Variables.ofFiles look paths = .ok vars) ↔
    ∀ p ∈ paths, ∃ vars, Variables.ofFile look p = .ok vars
  /-- A name is then defined exactly if one of them defines it. -/
  defines : ∀ paths vars, Variables.ofFiles look paths = .ok vars →
    ∀ name, (∃ value, vars.get? name = some value) ↔ ∃ p ∈ paths, Variables.Defines look name p
  /-- Its value is the whole value that the last of these gives it. -/
  decides : ∀ paths vars, Variables.ofFiles look paths = .ok vars →
    ∀ name value, vars.get? name = some value ↔ Variables.GivenLast look paths name value
  /-- Otherwise they fail as the first of them that cannot be read. -/
  fails : ∀ paths e, Variables.ofFiles look paths = .error e ↔
    ∃ front p back, paths = front ++ p :: back ∧
      (∀ q ∈ front, ∃ vars, Variables.ofFile look q = .ok vars) ∧
      Variables.ofFile look p = .error e
  /-- No file behind that one matters. -/
  stops : ∀ front p e, (∀ q ∈ front, ∃ vars, Variables.ofFile look q = .ok vars) →
    Variables.ofFile look p = .error e →
    ∀ look' back, (∀ q ∈ front ++ [p], look' q = look q) →
      Variables.ofFiles look' (front ++ p :: back) = .error e
  /-- Files behind others are as good as their variables on top of those of the others. -/
  appends : ∀ paths paths' vars, Variables.ofFiles look (paths ++ paths') = .ok vars ↔
    ∃ below above, Variables.ofFiles look paths = .ok below ∧
      Variables.ofFiles look paths' = .ok above ∧ below.merge above = vars

/-- The last variable file with a name decides, and so the files that a rendering names itself
decide before those of its configuration. -/
theorem lastFileDecides_ofFiles : (∀ look, LastFileDecides look) ∧
    ∀ (c : RenderCommand) (s : Surroundings) (context : Context) (documents : List Document),
      c.prepare s = .ok (context, documents) →
      ∃ config, s.config c.configFile = .ok config ∧ ∀ name value,
        context.vars.get? name = some value ↔
          Variables.GivenLast s.look c.variableFiles name value ∨
            (∀ p ∈ c.variableFiles, ¬ Variables.Defines s.look name p) ∧
              Variables.GivenLast s.look config.variableFiles name value := by
  refine ⟨fun look => ⟨?_, ?_, ?_, ?_, ?_, ?_⟩, ?_⟩
  · exact fun paths => Variables.exists_ofFiles_eq_ok_iff
  · intro paths vars h name
    simp only [Variables.get?_eq_some_iff_givenLast h, Variables.exists_givenLast_iff]
  · exact fun paths vars h name value => Variables.get?_eq_some_iff_givenLast h
  · exact fun paths e => Variables.ofFiles_eq_error_iff
  · intro front p e hfront hp look' back hlook
    obtain ⟨hfrontLook, hpLook⟩ := List.forall_mem_append.mp hlook
    refine Variables.ofFiles_eq_error_iff.mpr ⟨front, p, back, rfl, fun q hq => ?_, ?_⟩
    · rw [Variables.ofFile_eq_of_eq (hfrontLook q hq)]
      exact hfront q hq
    · rw [Variables.ofFile_eq_of_eq (hpLook p List.mem_cons_self)]
      exact hp
  · exact fun paths paths' vars => Variables.ofFiles_append_eq_ok_iff
  · intro c s context documents h
    obtain ⟨config, hconfig, hfiles⟩ := RenderCommand.exists_ofFiles_of_prepare h
    refine ⟨config, hconfig, fun name value => ?_⟩
    rw [Variables.get?_eq_some_iff_givenLast hfiles, Variables.givenLast_append_iff]

/-- A configuration with a variable file, and a variable file beside it. -/
def layeredFiles : Surroundings where
  look p :=
    if p = "b.json".toList then .ok (.file "\x7b\"y\": \x7b\x7d\x7d".toList)
    else if p = "w/a.json".toList then
      .ok (.file "\x7b\"x\": 1, \"y\": \x7b\"z\": 1\x7d\x7d".toList)
    else if p = "w/undox-liquid.yaml".toList then .ok (.file "vars: [a.json]".toList)
    else .error .notFound
  workingDirectory := ['w']
  environment := []

/-- A rendering with that variable file of its own. -/
def layeredCommand : RenderCommand where
  inputs := []
  variableFiles := ["b.json".toList]

/-- What the pipeline of the rendering takes: all of `y` is from the file of the command. -/
def layeredContext : Context :=
  ⟨⟨{}, .standard⟩, ⟨[(['x'], .int 1), (['y'], .mapping [])]⟩, none⟩

/-- All of `y` is from the file of the command, and `x` from that of the configuration. -/
theorem lastFileDecides_ofFiles_layered :
    layeredCommand.prepare layeredFiles = .ok (layeredContext, []) ∧
      ∃ config, layeredFiles.config none = .ok config ∧ ∀ name value,
        layeredContext.vars.get? name = some value ↔
          Variables.GivenLast layeredFiles.look ["b.json".toList] name value ∨
            (∀ p ∈ ["b.json".toList], ¬ Variables.Defines layeredFiles.look name p) ∧
              Variables.GivenLast layeredFiles.look config.variableFiles name value := by
  have hconfig : layeredFiles.config none = .ok ⟨{}, ["w/a.json".toList]⟩ := by decide +kernel
  have hbelow : Variables.ofFile layeredFiles.look "w/a.json".toList =
      .ok ⟨[(['x'], .int 1), (['y'], .mapping [(['z'], .int 1)])]⟩ := by
    have hread : layeredFiles.look.read "w/a.json".toList =
        .ok "\x7b\"x\": 1, \"y\": \x7b\"z\": 1\x7d\x7d".toList := by decide
    have hformat : VariableFormat.ofPath? "w/a.json".toList = some .json := by decide
    have htree : Json.ofText? "\x7b\"x\": 1, \"y\": \x7b\"z\": 1\x7d\x7d".toList =
        some (.object [(['x'], .number (.integer 1)),
          (['y'], .object [(['z'], .number (.integer 1))])]) := by
      with_unfolding_all rfl
    simp only [Variables.ofFile, hread, Variables.ofContent, hformat, htree]
    rfl
  have habove : Variables.ofFile layeredFiles.look "b.json".toList =
      .ok ⟨[(['y'], .mapping [])]⟩ := by
    have hread : layeredFiles.look.read "b.json".toList =
        .ok "\x7b\"y\": \x7b\x7d\x7d".toList := by decide
    have hformat : VariableFormat.ofPath? "b.json".toList = some .json := by decide
    have htree : Json.ofText? "\x7b\"y\": \x7b\x7d\x7d".toList =
        some (.object [(['y'], .object [])]) := by
      with_unfolding_all rfl
    simp only [Variables.ofFile, hread, Variables.ofContent, hformat, htree]
    rfl
  have hvars : Variables.ofFiles layeredFiles.look ["w/a.json".toList, "b.json".toList] =
      .ok layeredContext.vars := by
    rw [Variables.ofFiles, List.foldlM_cons, hbelow]
    simp only [Except.map, List.foldlM_cons, habove]
    rfl
  have hprepare : layeredCommand.prepare layeredFiles = .ok (layeredContext, []) := by
    simp only [RenderCommand.prepare, layeredCommand, hconfig, bind, Except.bind,
      List.singleton_append, hvars]
    rfl
  exact ⟨hprepare, lastFileDecides_ofFiles.2 _ _ _ _ hprepare⟩

end DocTemplate
