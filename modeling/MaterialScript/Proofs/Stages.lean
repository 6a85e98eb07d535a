/-
The stages of shaders.

There is one stage draft for a whole load. It is empty wherever the block of a
stage may start (`Scene.InDialect`): the end of such a block takes it, and no
other line touches it. So the draft a block leaves is what the lines of this
block say (`StageBody`), and the stage that is submitted is made of that
(`TellsStage`). A dialect links its shader when its block ends; until then only
the shader that is open can have a stage that is not linked (`Scene.InStage`).
-/
import MaterialScript.Proofs.Points
import MaterialScript.Proofs.Reachable
import MaterialScript.RenderSystem.Recorder

namespace MaterialScript

/-! ## What a stage block says -/

/-- What a line says of the stage it belongs to. -/
inductive StageSaying where
  | version (version : ShaderVersion)
  | code (code : List String)

namespace StageSaying

def version? : StageSaying → Option ShaderVersion
  | version v => some v
  | code _ => none

def entries : StageSaying → List String
  | version _ => []
  | code c => c

/-- The version of the last line that gives one. -/
def lastVersion? (said : List StageSaying) : Option ShaderVersion :=
  (said.filterMap version?).getLast?

/-- The code of all lines in order. -/
def allCode (said : List StageSaying) : List String := said.flatMap entries

end StageSaying

/-- A draft after more has been said. -/
def StageDraft.after (d : StageDraft) (said : List StageSaying) : StageDraft :=
  ⟨(StageSaying.lastVersion? said).getD d.version, d.source ++ StageSaying.allCode said⟩

@[simp] theorem StageDraft.after_nil (d : StageDraft) : d.after [] = d := by
  simp [after, StageSaying.lastVersion?, StageSaying.allCode]

@[simp] theorem StageDraft.after_version (d : StageDraft) (version : ShaderVersion) :
    d.after [.version version] = { d with version } := by
  simp [after, StageSaying.lastVersion?, StageSaying.version?, StageSaying.allCode,
    StageSaying.entries]

@[simp] theorem StageDraft.after_code (d : StageDraft) (code : List String) :
    d.after [.code code] = d.add code := by
  simp [after, add, StageSaying.lastVersion?, StageSaying.version?, StageSaying.allCode,
    StageSaying.entries]

theorem StageDraft.after_append (d : StageDraft) (said more : List StageSaying) :
    d.after (said ++ more) = (d.after said).after more := by
  simp only [after, StageSaying.lastVersion?, StageSaying.allCode, List.filterMap_append,
    List.flatMap_append, List.getLast?_append, List.append_assoc]
  cases (more.filterMap StageSaying.version?).getLast? <;> rfl

namespace Parser

variable {σ : Type} {files : Files}

/-- The code in a file; a file that cannot be read has none. -/
def codeAt (files : Files) (path : String) : List String :=
  match files path with
  | .ok content => StageDraft.codeOfFile content
  | .error _ => []

/-- What the line of a stage block says that starts with the token read last. A definition and a
discarded block say nothing of the stage. -/
inductive LineSays (files : Files) (s : State (Scene σ)) : List StageSaying → Prop
  | version {v : ShaderVersion} {u : State (Scene σ)} : s.cursor.current.isName "version" →
      (keyword ShaderVersion.vocabulary).run s = (.ok v, u) → LineSays files s [.version v]
  | source {code : String} {u : State (Scene σ)} : s.cursor.current.isName "source" →
      text.run s = (.ok code, u) → LineSays files s [.code [code]]
  | sourceFile {path : String} {code : List String} {u : State (Scene σ)} :
      s.cursor.current.isName "sourceFile" → text.run s = (.ok path, u) →
      code = codeAt files path → LineSays files s [.code code]
  | definition : s.cursor.current.isSymbol .atSign → LineSays files s []
  | discarded : s.cursor.current.isName "discard" → LineSays files s []

/-- The lines of a stage block from `s` to the `}` read in `w`, with what they say. -/
inductive StageBody (files : Files) (w : State (Scene σ)) :
    State (Scene σ) → List StageSaying → Prop
  | close {s : State (Scene σ)} : (s.advance true).cursor.current.kind = .symbol .rightBrace →
      w = s.advance true → StageBody files w s []
  | line {s u : State (Scene σ)} {said more : List StageSaying} : ¬ s.AtEnd →
      LineSays files (s.advance true) said →
      (line stageLine () (s.advance true).cursor.current).run (s.advance true) = (.ok (), u) →
      StageBody files w u more → StageBody files w s (said ++ more)

/-- The lines of a stage make no resource. -/
theorem stageLine_resources (b : Unit) (t : Token) :
    Composed (fun _ f => ∀ s : Scene σ, (f s).2.toResources = s.toResources) True
      (stageLine b t) := by
  have hversion : Composed (fun _ f => ∀ s : Scene σ, (f s).2.toResources = s.toResources) True
      (requireVersion t) := .bind (.build fun _ => rfl) fun _ => failIf_composed _ _ _
  unfold stageLine
  split
  · exact .bind (keyword_composed _) fun _ => .build fun _ => rfl
  · exact .bind hversion fun _ => .bind text_composed fun _ => .build fun _ => rfl
  · refine .bind hversion fun _ => .bind ?_ fun _ => .build fun _ => rfl
    refine .bind text_composed fun path => .bind (.build fun _ => rfl) fun content => ?_
    split
    · exact .pure _
    · exact .bind (.note _) fun _ => .pure _
  · exact unexpectedName_composed t

theorem requireVersion_scene {t : Token} {s u : State (Scene σ)}
    (h : (requireVersion t).run s = (.ok (), u)) : u = s := by
  obtain ⟨b, v, hlook, h⟩ := run_bind_eq_ok h
  cases hlook
  unfold failIf at h
  split at h <;> cases h
  rfl

theorem codeFromFile_says {s u : State (Scene σ)} {code : List String}
    (h : codeFromFile.run s = (.ok code, u)) :
    ∃ path v, text.run s = (.ok path, v) ∧ u.scene.drafts = s.scene.drafts ∧
      code = codeAt s.scene.files path := by
  obtain ⟨path, v, htext, h⟩ := run_bind_eq_ok h
  obtain ⟨answer, x, hread, h⟩ := run_bind_eq_ok h
  cases hread
  rw [scene_eq_of_run text_composed htext] at h
  refine ⟨path, v, htext, ?_⟩
  unfold codeAt
  simp only [Scene.readFile] at h
  cases hfile : s.scene.files path with
  | ok content =>
    rw [hfile] at h
    cases h
    exact ⟨rfl, rfl⟩
  | error fault =>
    rw [hfile] at h
    cases h
    exact ⟨rfl, rfl⟩

/-- A line leaves the draft with what it says. -/
theorem line_says {s u : State (Scene σ)}
    (h : (line stageLine () s.cursor.current).run s = (.ok (), u)) :
    ∃ said, LineSays s.scene.files s said ∧
      u.scene.drafts.stage = s.scene.drafts.stage.after said := by
  have looks : ∀ {p : Parser (Scene σ) Unit}, Composed LooksOnly True p →
      (do p; return ()).run s = (.ok (), u) → u.scene = s.scene := fun hp h =>
    scene_eq_of_run (.bind hp fun _ => .pure ()) h
  unfold line at h
  split at h
  · rename_i hkind
    rw [looks variableDefinition_composed h]
    exact ⟨[], .definition (by simp [Token.isSymbol, hkind]), by simp⟩
  · rename_i hkind
    split at h
    · rename_i htext
      rw [looks discardedBlock_composed h]
      exact ⟨[], .discarded (Token.isName_iff.2 ⟨hkind, htext⟩), by simp⟩
    unfold stageLine at h
    split at h
    · rename_i htext
      obtain ⟨v, w, hword, h⟩ := run_bind_eq_ok h
      cases h
      refine ⟨_, .version (Token.isName_iff.2 ⟨hkind, htext⟩) hword, ?_⟩
      rw [StageDraft.after_version, ← scene_eq_of_run (keyword_composed _) hword]
      rfl
    · rename_i htext
      obtain ⟨_, v, hversion, h⟩ := run_bind_eq_ok h
      cases requireVersion_scene hversion
      obtain ⟨code, w, hcode, h⟩ := run_bind_eq_ok h
      cases h
      refine ⟨_, .source (Token.isName_iff.2 ⟨hkind, htext⟩) hcode, ?_⟩
      rw [StageDraft.after_code, ← scene_eq_of_run text_composed hcode]
      rfl
    · rename_i htext
      obtain ⟨_, v, hversion, h⟩ := run_bind_eq_ok h
      cases requireVersion_scene hversion
      obtain ⟨code, w, hcode, h⟩ := run_bind_eq_ok h
      cases h
      obtain ⟨path, x, hpath, hdrafts, hread⟩ := codeFromFile_says hcode
      refine ⟨[.code code], .sourceFile (Token.isName_iff.2 ⟨hkind, htext⟩) hpath hread, ?_⟩
      rw [StageDraft.after_code, ← hdrafts]
      rfl
    · cases h
  · cases h

/-- The body of a stage leaves the draft with what its lines say. -/
theorem stageBody_says [RenderSystem σ] {s w : State (Scene σ)} (hfiles : s.scene.files = files)
    (h : (blockBody stageLine ()).run s = (.ok (), w)) :
    ∃ said, StageBody files w s said ∧
      w.scene.drafts.stage = s.scene.drafts.stage.after said := by
  refine lines_induction (motive := fun _ s => s.scene.files = files → ∃ said,
    StageBody files w s said ∧ w.scene.drafts.stage = s.scene.drafts.stage.after said) ?_ ?_ h
    hfiles
  · rintro _ s hclose - rfl -
    exact ⟨[], .close hclose rfl, by simp [State.advance]⟩
  · rintro _ s _ u hend - hline ih hfiles
    have hu := ((files_invariant files).ofLines (line_composed stageLine_composed () _)).ok
      (s := s.advance true) hfiles hline
    obtain ⟨said, hsaid, hdraft⟩ := line_says (s := s.advance true) hline
    obtain ⟨more, hmore, hw⟩ := ih hu
    have hfiles : (s.advance true).scene.files = files := hfiles
    rw [hfiles] at hsaid
    refine ⟨said ++ more, .line hend hsaid hline hmore, ?_⟩
    rw [hw, hdraft, ← StageDraft.after_append]
    rfl

end Parser

/-! ## Shaders and their stages -/

/-- A stage is of a known kind, and has a version and code. -/
structure ShaderStage.Whole (stage : ShaderStage) : Prop where
  kind : stage.stage ≠ .unspecified
  version : stage.version ≠ .unspecified
  source : stage.source ≠ []

def Shader.Whole (shader : Shader) : Prop := ∀ stage ∈ shader.stages, stage.Whole

/-- A shader is compiled if it has a stage, and only then. -/
def Shader.Linked (shader : Shader) : Prop := shader.compiled = !shader.stages.isEmpty

/-- The word for a stage stands for no other than a known kind. -/
theorem ShaderType.ne_unspecified_of_find? {word : String} {stage : ShaderType}
    (h : ShaderType.vocabulary.find? word = some stage) : stage ≠ .unspecified := by
  obtain ⟨front, back, hwords, -⟩ := List.lookup_eq_some_iff.1 h
  have hall : ∀ e ∈ ShaderType.vocabulary.words, e.2 ≠ .unspecified := by decide
  exact hall (word, stage) (by simp [hwords])

namespace Catalog

variable {α : Type} {P : α → Prop} {c : Catalog α}

/-- `P` holds of the value of every entry but the current one. -/
def AllOlder (P : α → Prop) (c : Catalog α) : Prop := ∀ e ∈ c.entries.dropLast, P e.2

theorem All.older (h : c.All P) : c.AllOlder P := fun e he => h e (List.dropLast_subset _ he)

theorem all_of_entries {front : List (String × α)} {name : String} {value : α}
    (h : c.entries = front ++ [(name, value)]) :
    c.All P ↔ (∀ e ∈ front, P e.2) ∧ P value := by
  simp [All, h, or_imp, forall_and]

theorem allOlder_of_entries {front : List (String × α)} {name : String} {value : α}
    (h : c.entries = front ++ [(name, value)]) : c.AllOlder P ↔ ∀ e ∈ front, P e.2 := by
  simp [AllOlder, h]

end Catalog

namespace Scene

variable {σ : Type}

/-- A compiler changes the current shader and nothing else of the shaders. -/
theorem compileWith_entries (compiler : Shader → σ → Bool × Shader × σ) {s : Scene σ}
    {front : List (String × Shader)} {name : String} {shader : Shader}
    (h : s.shaders.entries = front ++ [(name, shader)]) :
    (s.compileWith compiler).2.shaders.entries =
      front ++ [(name, (compiler shader s.system).2.1)] := by
  have hcurrent : s.shaders.current? = some (name, shader) := by simp [Catalog.current?, h]
  rw [compileWith, hcurrent]
  change Catalog.changeLast _ s.shaders.entries = _
  rw [h, Catalog.changeLast_append]

theorem compileWith_drafts {compiler : Shader → σ → Bool × Shader × σ} {s : Scene σ} :
    (s.compileWith compiler).2.drafts = s.drafts :=
  compileWith_keeps (P := fun t => t.drafts = s.drafts) rfl fun _ _ _ _ => rfl

theorem compileWith_of_nil {compiler : Shader → σ → Bool × Shader × σ} {s : Scene σ}
    (h : s.shaders.entries = []) : s.compileWith compiler = (false, s) := by
  have hcurrent : s.shaders.current? = none := by simp [Catalog.current?, h]
  rw [compileWith, hcurrent]

/-- Where a line of a stage may stand: the stages are whole, and all shaders but the one that is
open are linked. -/
structure InStage (s : Scene Recorder) : Prop where
  whole : s.shaders.All Shader.Whole
  older : s.shaders.AllOlder Shader.Linked

/-- Where the block of a stage may stand: nothing has been said of it yet. -/
structure InDialect (s : Scene Recorder) : Prop extends s.InStage where
  drained : s.drafts.stage = .empty

/-- Where a dialect or a declaration may stand: all shaders are linked. -/
structure Between (s : Scene Recorder) : Prop where
  whole : s.shaders.All Shader.Whole
  linked : s.shaders.All Shader.Linked
  drained : s.drafts.stage = .empty

variable {s : Scene Recorder}

theorem Between.inStage (h : s.Between) : s.InStage := ⟨h.whole, h.linked.older⟩

theorem Between.inDialect (h : s.Between) : s.InDialect := ⟨h.inStage, h.drained⟩

/-- Submitting a stage that is whole. -/
theorem InDialect.compileStage (h : s.InDialect) {stage : ShaderStage} (hstage : stage.Whole) :
    (s.compileStage stage).2.InDialect := by
  refine ⟨?_, (congrArg Drafts.stage compileWith_drafts).trans h.drained⟩
  rcases List.eq_nil_or_concat s.shaders.entries with hnil | ⟨front, ⟨name, shader⟩, hentries⟩
  · rw [Scene.compileStage, compileWith_of_nil hnil]
    exact h.toInStage
  · rw [List.concat_eq_append] at hentries
    obtain ⟨hfront, hshader⟩ := (Catalog.all_of_entries hentries).1 h.whole
    have hafter := compileWith_entries (fun shader => RenderSystem.compileStage shader stage)
      hentries
    refine ⟨(Catalog.all_of_entries hafter).2 ⟨hfront, ?_⟩,
      (Catalog.allOlder_of_entries hafter).2 ((Catalog.allOlder_of_entries hentries).1 h.older)⟩
    simp only [RenderSystem.compileStage]
    split
    · exact hshader
    · intro other hother
      rcases List.mem_append.1 hother with hold | hnew
      · exact hshader other hold
      · rw [List.mem_singleton.1 hnew]
        exact hstage

/-- Linking the shader that is open. -/
theorem InDialect.compileShader (h : s.InDialect) : s.compileShader.2.Between := by
  have hdrained : s.compileShader.2.drafts.stage = .empty :=
    (congrArg Drafts.stage compileWith_drafts).trans h.drained
  rcases List.eq_nil_or_concat s.shaders.entries with hnil | ⟨front, ⟨name, shader⟩, hentries⟩
  · rw [Scene.compileShader, compileWith_of_nil hnil]
    refine ⟨h.whole, ?_, h.drained⟩
    rw [Catalog.All, hnil]
    exact List.forall_mem_nil _
  · rw [List.concat_eq_append] at hentries
    obtain ⟨hfront, hshader⟩ := (Catalog.all_of_entries hentries).1 h.whole
    have hafter := compileWith_entries RenderSystem.compileShader hentries
    have holder := (Catalog.allOlder_of_entries hentries).1 h.older
    refine ⟨(Catalog.all_of_entries hafter).2 ⟨hfront, ?_⟩,
      (Catalog.all_of_entries hafter).2 ⟨holder, ?_⟩, hdrained⟩
    · simp only [RenderSystem.compileShader]
      split <;> exact hshader
    · simp only [RenderSystem.compileShader, Shader.Linked]
      split <;> simp_all

/-- What is not done to a shader leaves shaders and stages as they are. -/
theorem Between.line {kind : ResourceKind} (hkind : kind ≠ .shader) {α : Type}
    {f : Scene Recorder → α × Scene Recorder} (hf : LineChange kind α f) (h : s.Between) :
    (f s).2.Between := by
  cases hf
  all_goals first
    | exact ⟨h.whole, h.linked, h.drained⟩
    | exact absurd rfl hkind

theorem Between.declaration {α : Type} {f : Scene Recorder → α × Scene Recorder}
    (hf : DeclarationChange α f) (h : s.Between) : (f s).2.Between := by
  cases hf
  case addShader name layout =>
    exact ⟨h.whole.insert name nofun, h.linked.insert name rfl, h.drained⟩
  case addTexture name draft =>
    exact Scene.addTexture_keeps (P := Scene.Between) (fun _ => ⟨h.whole, h.linked, h.drained⟩)
      fun _ _ => ⟨h.whole, h.linked, h.drained⟩
  all_goals exact ⟨h.whole, h.linked, h.drained⟩

end Scene

namespace Parser

theorem stageLine_inStage (b : Unit) (t : Token) :
    Triple Scene.InStage (stageLine (σ := Recorder) b t) (fun _ => Scene.InStage)
      Scene.InStage := by
  refine .of_composed (stageLine_resources b t) (fun _ f s hf h => ?_) fun _ h => h
  have hshaders : (f s).2.shaders = s.shaders := congrArg Resources.shaders (hf s)
  refine ⟨?_, ?_⟩ <;> rw [hshaders]
  · exact h.whole
  · exact h.older

/-- The end of a stage takes the draft, and submits it if it is whole. -/
theorem finishStage_inStage {stage : ShaderType} (hstage : stage ≠ .unspecified)
    (entryPoint : String) :
    Triple Scene.InStage (finishStage (σ := Recorder) stage entryPoint) (fun _ => Scene.InDialect)
      Scene.InStage := by
  refine .bind (.of_looksOnly .current fun _ h => h) fun close =>
    .bind (Q := fun _ => Scene.InDialect) (.build fun s h => ⟨⟨h.whole, h.older⟩, rfl⟩)
      fun draft => ?_
  split
  · exact .fail _ fun _ h => h.toInStage
  split
  · exact .of_looksOnly (.note _) fun _ h => h.toInStage
  · rename_i hversion hcode
    have hwhole : (draft.submitted stage entryPoint).Whole := by
      refine ⟨hstage, ?_, ?_⟩
      · simpa [StageDraft.hasVersion, StageDraft.submitted] using hversion
      · simpa [StageDraft.submitted] using hcode
    exact .bind (Q := fun _ => Scene.InDialect) (.build fun s h => h.compileStage hwhole)
      fun compiled => .of_looksOnly (noteIf_composed _ _) fun _ h => h.toInStage

theorem stageBlock_inDialect (b : Unit) (t : Token) :
    Triple Scene.InDialect (stageBlock (σ := Recorder) b t) (fun _ => Scene.InDialect)
      Scene.InStage := by
  unfold stageBlock
  split
  · exact .of_looksOnly (unexpectedName_composed t) fun _ h => h.toInStage
  · rename_i stage hfind
    have hlines : Triple Scene.InStage (blockBody (stageLine (σ := Recorder)) ())
        (fun _ => Scene.InStage) Scene.InStage := .lines stageLine_inStage (fun _ _ h => h) ()
    refine .bind (.of_looksOnly (stageHeader_composed stage) fun _ h => h.toInStage)
      fun entryPoint => .bind (hlines.mono (fun _ h => h.toInStage) (fun _ _ h => h) fun _ h => h)
        fun _ => ?_
    exact finishStage_inStage (ShaderType.ne_unspecified_of_find? hfind) entryPoint

theorem dialectBlock_between (b : Unit) (t : Token) :
    Triple Scene.Between (dialectBlock (σ := Recorder) b t) (fun _ => Scene.Between)
      Scene.InStage := by
  unfold dialectBlock
  split
  · exact .of_looksOnly (unexpectedName_composed t) fun _ h => h.inStage
  · refine .bind (.of_looksOnly (.build fun _ => rfl) fun _ h => h.inStage) fun backend => ?_
    split
    · exact .of_looksOnly (.bind (.note _) fun _ => skipBlock_composed) fun _ h => h.inStage
    · have hblock : Triple Scene.InDialect (block (stageBlock (σ := Recorder)) ())
          (fun _ => Scene.InDialect) Scene.InStage :=
        .block stageBlock_inDialect (fun _ _ h => h.toInStage) ()
      refine .bind (hblock.mono (fun _ h => h.inDialect) (fun _ _ h => h) fun _ h => h) fun _ => ?_
      exact .bind (Q := fun _ => Scene.Between) (.build fun s h => h.compileShader) fun compiled =>
        .of_looksOnly (.bind (.build fun _ => rfl) fun _ => noteIf_composed _ _) fun _ h =>
          h.inStage

theorem declaration_between (b : Unit) (t : Token) :
    Triple Scene.Between (declaration (σ := Recorder) b t) (fun _ => Scene.Between)
      Scene.InStage := by
  refine .declaration (fun _ h => h.inStage) (fun hf h => h.declaration hf) (fun kind => ?_) b t
  by_cases hkind : kind = .shader
  · rw [hkind]
    exact .lines dialectBlock_between (fun _ _ h => h.inStage) ()
  · exact .of_composed (declaredBlock_composed kind) (fun _ _ _ hf h => h.line hkind hf)
      fun _ h => h.inStage

theorem script_between :
    Triple Scene.Between (script (σ := Recorder)) (fun _ => Scene.Between) Scene.InStage :=
  .lines declaration_between (fun _ _ h => h.inStage) ()

theorem State.Fresh.between {s : State (Scene Recorder)} (h : s.Fresh) : s.scene.Between := by
  have hshaders : s.scene.shaders = .empty := congrArg Resources.shaders h.resources
  refine ⟨?_, ?_, congrArg Drafts.stage h.drafts⟩ <;> rw [hshaders]
  · exact Catalog.all_empty _
  · exact Catalog.all_empty _

/-! ## Blocks of stages -/

section StageBlock

variable {s₀ s t u d e x y w : State (Scene Recorder)} {name : Token}

/-- Where the block of a stage may start: nothing has been said of it, and its shader is the one
declared last. -/
theorem stageBlock_starts (hfresh : s₀.Fresh) (hs : Hands none s₀ s)
    (hshader : DeclaresShader name s t u) (hd : Hands (some .shader) u d)
    (hdialect : OpensDialect d e) (hx : Hands (some .dialect) e x) :
    s₀.Onward x ∧ x.scene.InDialect ∧
      ∃ front shader, x.scene.shaders.entries = front ++ [(name.text, shader)] := by
  have hsbetween : s.scene.Between := HandsLine.keeps declaration_between hs hfresh.between
  have hubetween : u.scene.Between := by
    have hheader : Composed DeclarationChange True (shaderHeader (σ := Recorder) name) :=
      shaderHeader_composed name
    rw [← scene_eq_of_run declaredName_composed hshader.declared] at hsbetween
    exact hheader.keeps_of_run Scene.Between (fun _ _ _ hf h => h.declaration hf) hshader.header
      hsbetween
  have hdbetween : d.scene.Between := HandsLine.keeps dialectBlock_between hd hubetween
  have he := scene_eq_of_run (expect_composed _) hdialect.brace
  have hxdialect : x.scene.InDialect :=
    HandsLine.keeps stageBlock_inDialect hx (he ▸ hdbetween.inDialect)
  refine ⟨?_, hxdialect, ?_⟩
  · exact ((((HandsLine.onward hs).trans hshader.onward).trans (HandsLine.onward hd)).trans
      (onward_of_run hdialect.brace)).trans (HandsLine.onward hx)
  · have hnames : x.scene.shaders.names = t.scene.shaders.names ++ [name.text] := calc
      x.scene.names .shader = e.scene.names .shader := hx.names .shader
      _ = d.scene.names .shader := by rw [he]
      _ = u.scene.names .shader := hd.names .shader
      _ = t.scene.shaders.names ++ [name.text] := shaderHeader_names hshader.header .shader
    obtain ⟨front, last, hentries, -, hlast⟩ := List.map_eq_append_iff.1 hnames
    obtain ⟨⟨_, shader⟩, rfl, rfl⟩ := List.map_eq_singleton_iff.1 hlast
    exact ⟨front, shader, hentries⟩

/-- The entry point of a stage is the string in its header, or the default of its kind. -/
theorem stageHeader_named {stage : ShaderType} {entryPoint : String}
    (hends : Ends x.cursor.tokens) (h : (stageHeader stage).run x = (.ok entryPoint, y)) :
    ∃ ts, x.cursor.Passes ts y.cursor ∧ entryPoint =
      (leading? .string (visible x.cursor.lineBreaksCount ts)).getD stage.defaultEntryPoint := by
  obtain ⟨t, v, hnext, h⟩ := run_bind_eq_ok h
  obtain ⟨ts, hts, -, hseen⟩ := Reads.next hends rfl hnext
  split at h
  · rename_i hopen
    cases h
    have hkind : t.kind = .symbol .leftBrace := by simpa [Token.isSymbol] using hopen
    exact ⟨ts, hts, by simp [hseen, leading?, hkind]⟩
  split at h
  · rename_i hname
    obtain ⟨_, w, hexpect, h⟩ := run_bind_eq_ok h
    cases h
    obtain ⟨us, hus⟩ := (onward_of_run hexpect).leads
    exact ⟨ts ++ us, hts.trans hus, by simp [visible_append, hseen, leading?, hname.1]⟩
  · cases h

/-- The block of a stage, whose word has been read in `x`, whose lines start in `z` and whose `}` is
read in `w`, tells of a stage. -/
structure TellsStage (files : Files) (x z w : State (Scene Recorder)) (header : List Token)
    (said : List StageSaying) (stage : ShaderStage) : Prop where
  kind : ShaderType.vocabulary.find? x.cursor.current.text = some stage.stage
  opens : (stageHeader stage.stage).run x = (.ok stage.entryPoint, z)
  passes : x.cursor.Passes header z.cursor
  entryPoint : stage.entryPoint =
    (leading? .string (visible false header)).getD stage.stage.defaultEntryPoint
  body : StageBody files w z said
  version : StageSaying.lastVersion? said = some stage.version
  source : stage.source = StageSaying.allCode said

/-- What is submitted: a stage without code is not. -/
def submissions (stage : ShaderStage) : List ShaderStage :=
  if stage.source = [] then [] else [stage]

/-- The end of a stage that succeeds. -/
theorem finishStage_submits {stage : ShaderType} {entryPoint : String}
    {front : List (String × Shader)} {key : String} {shader : Shader}
    (hentries : w.scene.shaders.entries = front ++ [(key, shader)])
    (h : (finishStage stage entryPoint).run w = (.ok (), y)) :
    w.scene.drafts.stage.hasVersion ∧ y.cursor = w.cursor ∧
      y.scene.shaders.entries = front ++ [(key, { shader with
        stages := shader.stages ++
          submissions (w.scene.drafts.stage.submitted stage entryPoint) })] := by
  have hcursor := (finishStage_stays stage entryPoint).cursor_eq h
  obtain ⟨close, _, hclose, h⟩ := run_bind_eq_ok h
  cases hclose
  obtain ⟨draft, v, htake, h⟩ := run_bind_eq_ok h
  obtain ⟨hdraft, hshaders⟩ : draft = w.scene.drafts.stage ∧
      v.scene.shaders = w.scene.shaders := by
    cases htake
    exact ⟨rfl, rfl⟩
  rw [← hshaders] at hentries
  rw [← hdraft]
  split at h
  · cases h
  rename_i hversion
  refine ⟨by simpa using hversion, hcursor, ?_⟩
  split at h
  · rename_i hnone
    cases h
    have hnone : draft.source = [] := by simpa using hnone
    simp [submissions, StageDraft.submitted, hnone, hentries]
  · rename_i hsome
    obtain ⟨compiled, _, hcompile, h⟩ := run_bind_eq_ok h
    cases hcompile
    have hsome : draft.source ≠ [] := by simpa using hsome
    rw [scene_eq_of_run (noteIf_composed _ _) h]
    refine (Scene.compileWith_entries _ hentries).trans ?_
    simp [submissions, StageDraft.submitted, hsome, RenderSystem.compileStage]

/-- A stage block that succeeds submits the stage it tells of to the shader declared last. -/
theorem stageBlock_submits {files : Files} (hends : Ends x.cursor.tokens)
    (hbreaks : x.cursor.lineBreaksCount = false) (hfiles : x.scene.files = files)
    (hdrained : x.scene.drafts.stage = .empty) {front : List (String × Shader)} {key : String}
    {shader : Shader} (hentries : x.scene.shaders.entries = front ++ [(key, shader)])
    (h : (stageBlock () x.cursor.current).run x = (.ok (), y)) :
    ∃ stage header said z w, TellsStage files x z w header said stage ∧ y.cursor = w.cursor ∧
      y.scene.shaders.entries =
        front ++ [(key, { shader with stages := shader.stages ++ submissions stage })] := by
  unfold stageBlock at h
  split at h
  · cases h
  rename_i kind hkind
  obtain ⟨entryPoint, z, hheader, h⟩ := run_bind_eq_ok h
  obtain ⟨_, w, hbody, hfinish⟩ := run_bind_eq_ok h
  obtain ⟨header, hpasses, hentryPoint⟩ := stageHeader_named hends hheader
  rw [hbreaks] at hentryPoint
  have hz := scene_eq_of_run (stageHeader_composed kind) hheader
  rw [← hz] at hfiles
  obtain ⟨said, hsaid, hdraft⟩ := stageBody_says hfiles hbody
  have hw : w.scene.shaders = x.scene.shaders := by
    have hkeeps := (lines_composed stageLine_resources _ ()).keeps_of_run
      (fun r => r.toResources = z.scene.toResources) (fun _ _ r hf hr => (hf r).trans hr) hbody rfl
    rw [← hz]
    exact congrArg Resources.shaders hkeeps
  rw [hz, hdrained] at hdraft
  obtain ⟨hversion, hcursor, hsubmitted⟩ := finishStage_submits (hw ▸ hentries) hfinish
  rw [hdraft] at hversion hsubmitted
  refine ⟨_, header, said, z, w, ⟨hkind, hheader, hpasses, hentryPoint, hsaid, ?_, rfl⟩, hcursor,
    hsubmitted⟩
  cases hlast : StageSaying.lastVersion? said with
  | none => simp [StageDraft.hasVersion, StageDraft.after, StageDraft.empty, hlast] at hversion
  | some version => simp [StageDraft.submitted, StageDraft.after, hlast]

end StageBlock

end Parser

namespace Loader

/-- A load that succeeds has linked its shaders. -/
theorem linked_of_perform {l : Loader Recorder} {files : Files} {load : Load}
    (h : (l.perform files load).1.isOk) :
    (l.perform files load).2.resources.shaders.All Shader.Linked := by
  have houtcome := perform_outcome l files load
  rw [h] at houtcome
  generalize hstart : l.start? files load = start at houtcome
  generalize hsuccess : true = success at houtcome
  cases houtcome with
  | unread => cases hsuccess
  | @read s₀ v answer _ hrun hresources _ =>
    cases answer with
    | error e => cases hsuccess
    | ok =>
      rw [hresources]
      exact (Parser.script_between.ok (fresh_of_start? hstart).1.between hrun).linked

/-- **Shader stages are submitted whole, once and to the right shader.**
- The block of a stage in a dialect that is read, where it ends without an error, appends to the
  shader it stands in the stage that its own header and lines tell of, if these lines have any code,
  and nothing otherwise.
- Whatever a host has done with a loader, every stage of its shaders is of a known kind, and has a
  version and code.
- After a load that succeeds, those shaders are compiled that have a stage. -/
theorem stages_submitted :
    (∀ (l : Loader Recorder) (files : Files) (load : Load) (name : Token)
      (s₀ s t u d e x y : Parser.State (Scene Recorder)), l.start? files load = some s₀ →
      Parser.Hands none s₀ s → Parser.DeclaresShader name s t u →
      Parser.Hands (some .shader) u d → Parser.OpensDialect d e →
      Parser.Hands (some .dialect) e x →
      (Parser.stageBlock () x.cursor.current).run x = (.ok (), y) →
      ∃ stage header said z w, Parser.TellsStage files x z w header said stage ∧
        y.cursor = w.cursor ∧ ∃ front shader,
          x.scene.shaders.entries = front ++ [(name.text, shader)] ∧
          y.scene.shaders.entries = front ++ [(name.text, { shader with
            stages := shader.stages ++ Parser.submissions stage })]) ∧
    (∀ l : Loader Recorder, l.Reachable → ∀ entry ∈ l.resources.shaders.entries,
      ∀ stage ∈ entry.2.stages, stage.stage ≠ .unspecified ∧ stage.version ≠ .unspecified ∧
        stage.source ≠ []) ∧
    ∀ (l : Loader Recorder) (files : Files) (load : Load), (l.perform files load).1.isOk →
      ∀ entry ∈ (l.perform files load).2.resources.shaders.entries,
        entry.2.compiled = !entry.2.stages.isEmpty := by
  refine ⟨?_, fun l hl => ?_, fun l files load h => linked_of_perform h⟩
  · intro l files load name s₀ s t u d e x y hstart hs hshader hd hdialect hx h
    obtain ⟨hfresh, hfiles⟩ := fresh_of_start? hstart
    obtain ⟨honward, hdialect', front, shader, hentries⟩ :=
      Parser.stageBlock_starts hfresh hs hshader hd hdialect hx
    have hxfiles : x.scene.files = files := by
      have hJ := Parser.files_invariant (σ := Recorder) files
      have hu := hJ.opens (.shader hshader) (hJ.hands hs hfiles)
      exact hJ.hands hx (hJ.opens (.dialect hdialect) (hJ.hands hd hu))
    obtain ⟨stage, header, said, z, w, htells, hcursor, hsubmitted⟩ :=
      Parser.stageBlock_submits (honward.ends hfresh.ends)
        (honward.lineBreaks.trans hfresh.lineBreaks) hxfiles hdialect'.drained hentries h
    exact ⟨stage, header, said, z, w, htells, hcursor, front, shader, hentries, hsubmitted⟩
  · have hwhole : l.resources.shaders.All Shader.Whole :=
      hl.invariant (I := fun r => r.shaders.All Shader.Whole) (Catalog.all_empty _) fun s hs =>
        ((Parser.script_between.mono (fun _ h => h) (fun _ _ h => h.inStage)
          fun _ h => h).ends hs.between).whole
    exact fun entry hentry stage hstage =>
      let h := hwhole entry hentry stage hstage
      ⟨h.kind, h.version, h.source⟩

/-- A shader with one stage, which says its version twice. -/
theorem stages_submitted_vertex_stage :
    let name (text : String) : Token := ⟨.name, text, .start⟩
    let string (text : String) : Token := ⟨.string, text, .start⟩
    let symbol (s : Symbol) : Token := .bare (.symbol s) .start
    let tokens :=
      [name "shader", string "s", symbol .leftBrace, name "glsl", symbol .leftBrace,
        name "vertex", string "main", symbol .leftBrace, name "version", name "std120",
        name "source", string "code", name "version", name "std330", symbol .rightBrace,
        symbol .rightBrace, symbol .rightBrace, .bare .endOfFile .start]
    let files : Files := fun _ => .error .notFound
    let l := Loader.new Recorder.default "/"
    let load : Load := .readTokens tokens
    let s₀ := l.begin.start files tokens
    let s := s₀.advance true
    let t := (Parser.declaredName.run s).2
    let u := ((Parser.shaderHeader (string "s")).run t).2
    let d := u.advance true
    let e := ((Parser.expect .leftBrace).run d).2
    let x := e.advance true
    let y := ((Parser.stageBlock () x.cursor.current).run x).2
    let k := (l.perform files load).2
    l.start? files load = some s₀ ∧ Parser.Hands none s₀ s ∧
      Parser.DeclaresShader (string "s") s t u ∧ Parser.Hands (some .shader) u d ∧
      Parser.OpensDialect d e ∧ Parser.Hands (some .dialect) e x ∧
      (Parser.stageBlock () x.cursor.current).run x = (.ok (), y) ∧
      (∃ stage header said z w, Parser.TellsStage files x z w header said stage ∧
        y.cursor = w.cursor ∧ ∃ front shader,
          x.scene.shaders.entries = front ++ [("s", shader)] ∧
          y.scene.shaders.entries = front ++ [("s", { shader with
            stages := shader.stages ++ Parser.submissions stage })]) ∧
      (y.scene.shaders.entries.map fun entry => entry.2.stages.map fun stage =>
        (stage.stage, stage.version, stage.source, stage.entryPoint)) =
        [[(.vertex, .glsl330, ["code"], "main")]] ∧
      k.Reachable ∧ (l.perform files load).1.isOk ∧
      (∀ entry ∈ k.resources.shaders.entries, ∀ stage ∈ entry.2.stages,
        stage.stage ≠ .unspecified ∧ stage.version ≠ .unspecified ∧ stage.source ≠ []) ∧
      ∀ entry ∈ k.resources.shaders.entries, entry.2.compiled = !entry.2.stages.isEmpty := by
  intro name string symbol tokens files l load s₀ s t u d e x y k
  have hstart : l.start? files load = some s₀ := rfl
  have hs : Parser.Hands none s₀ s :=
    Parser.HandsLine.here (by decide +kernel) (by decide +kernel) (by decide +kernel)
  have hshader : Parser.DeclaresShader (string "s") s t u := by
    have hname : (Parser.declaredName.run s).1 = .ok (string "s") := by decide +kernel
    have hheader : ((Parser.shaderHeader (string "s")).run t).1 = .ok () := by decide +kernel
    exact ⟨by decide +kernel, Parser.run_of_answer hname, by decide +kernel,
      Parser.run_of_answer hheader⟩
  have hd : Parser.Hands (some .shader) u d :=
    Parser.HandsLine.here (by decide +kernel) (by decide +kernel) (by decide +kernel)
  have hdialect : Parser.OpensDialect d e := by
    have hbrace : ((Parser.expect .leftBrace).run d).1 = .ok () := by decide +kernel
    exact ⟨⟨.glsl, by decide +kernel, by decide +kernel⟩, Parser.run_of_answer hbrace⟩
  have hx : Parser.Hands (some .dialect) e x :=
    Parser.HandsLine.here (by decide +kernel) (by decide +kernel) (by decide +kernel)
  have hclosed : ((Parser.stageBlock () x.cursor.current).run x).1 = .ok () := by decide +kernel
  have hrun := Parser.run_of_answer hclosed
  have hk : k.Reachable := .load _ _ (.new _ _)
  have hok : (l.perform files load).1.isOk := by decide +kernel
  exact ⟨hstart, hs, hshader, hd, hdialect, hx, hrun,
    stages_submitted.1 l files load (string "s") s₀ s t u d e x y hstart hs hshader hd hdialect hx
      hrun, by decide +kernel, hk, hok, stages_submitted.2.1 k hk,
    stages_submitted.2.2 l files load hok⟩

end Loader

end MaterialScript
