/-
What a load does to its scene.

`LineChange kind` lists what the lines of a declaration of this kind do to the
scene or ask of it, `DeclarationChange` what a declaration does before and
after its lines; `EntryChange` are those of the latter that enter resources.
`script_composed` says that a script does nothing else.
-/
import MaterialScript.Grammar.Script
import MaterialScript.Proofs.Composition

namespace MaterialScript

variable {σ : Type} [RenderSystem σ]

/-- What the lines of a declaration of a kind do to the scene. -/
inductive LineChange : ResourceKind → ∀ α : Type, (Scene σ → α × Scene σ) → Prop
  | material (change : Material → Material) :
      LineChange .material Unit fun s => ((), s.changeMaterial change)
  | vertexFormat (change : VertexFormat → VertexFormat) :
      LineChange .vertexFormat Unit fun s => ((), s.changeVertexFormat change)
  | textureLayer (change : TextureLayer → TextureLayer) :
      LineChange .textureLayer Unit fun s => ((), s.changeTextureLayer change)
  | hasTexture (name : String) :
      LineChange .textureLayer Bool fun s => (s.textures.contains name, s)
  | texture (change : TextureDraft → TextureDraft) :
      LineChange .texture Unit fun s => ((), s.changeTexture change)
  | stage (change : StageDraft → StageDraft) :
      LineChange .shader Unit fun s => ((), s.changeStage change)
  | hasVersion : LineChange .shader Bool fun s => (s.drafts.stage.hasVersion, s)
  | takeStage : LineChange .shader StageDraft Scene.takeStage
  | readFile (path : String) : LineChange .shader (Except FileFault String) (Scene.readFile path)
  | backend : LineChange .shader Backend fun s => (RenderSystem.backend s.system, s)
  | compileStage (stage : ShaderStage) : LineChange .shader Bool (Scene.compileStage stage)
  | compileShader : LineChange .shader Bool Scene.compileShader
  | currentShaderName : LineChange .shader String fun s => (s.currentShaderName, s)

/-- What a declaration does to the scene before and after its lines. -/
inductive DeclarationChange : ∀ α : Type, (Scene σ → α × Scene σ) → Prop
  | declares (kind : ResourceKind) (name : String) :
      DeclarationChange Bool fun s => (s.toResources.declares kind name, s)
  | supportsShaders : DeclarationChange Bool fun s => (RenderSystem.supportsShaders s.system, s)
  | layoutNamed (name : String) :
      DeclarationChange (Option InputLayout) fun s => (s.layoutNamed? name, s)
  | addMaterial (name : String) : DeclarationChange Unit fun s => ((), s.addMaterial name)
  | addShader (name : String) (layout : Option InputLayout) :
      DeclarationChange Unit fun s => ((), s.addShader name layout)
  | addVertexFormat (name : String) : DeclarationChange Unit fun s => ((), s.addVertexFormat name)
  | addTextureLayer (name : String) (kind : LayerKind) :
      DeclarationChange Unit fun s => ((), s.addTextureLayer name kind)
  | startTexture : DeclarationChange Unit fun s => ((), s.startTexture)
  | takeTexture : DeclarationChange TextureDraft Scene.takeTexture
  | addTexture (name : String) (draft : TextureDraft) :
      DeclarationChange Bool (Scene.addTexture name draft)

/-- Those of them that do not look at what resources hold: all but those of a shader's header, which
copies a vertex format. -/
inductive EntryChange : ∀ α : Type, (Scene σ → α × Scene σ) → Prop
  | declares (kind : ResourceKind) (name : String) :
      EntryChange Bool fun s => (s.toResources.declares kind name, s)
  | supportsShaders : EntryChange Bool fun s => (RenderSystem.supportsShaders s.system, s)
  | addMaterial (name : String) : EntryChange Unit fun s => ((), s.addMaterial name)
  | addVertexFormat (name : String) : EntryChange Unit fun s => ((), s.addVertexFormat name)
  | addTextureLayer (name : String) (kind : LayerKind) :
      EntryChange Unit fun s => ((), s.addTextureLayer name kind)
  | startTexture : EntryChange Unit fun s => ((), s.startTexture)
  | takeTexture : EntryChange TextureDraft Scene.takeTexture
  | addTexture (name : String) (draft : TextureDraft) :
      EntryChange Bool (Scene.addTexture name draft)

theorem EntryChange.declaration {α : Type} {f : Scene σ → α × Scene σ} (h : EntryChange α f) :
    DeclarationChange α f := by
  cases h
  all_goals constructor

/-- What a script does to the scene. -/
inductive SceneChange : ∀ α : Type, (Scene σ → α × Scene σ) → Prop
  | line {kind : ResourceKind} {α : Type} {f : Scene σ → α × Scene σ} :
      LineChange kind α f → SceneChange α f
  | declaration {α : Type} {f : Scene σ → α × Scene σ} : DeclarationChange α f → SceneChange α f

namespace Scene

omit [RenderSystem σ] in
/-- A compiler finds no shader, or changes the current one and the render system. -/
theorem compileWith_keeps {P : Scene σ → Prop} {compiler : Shader → σ → Bool × Shader × σ}
    {s : Scene σ} (h : P s)
    (hchange : ∀ name shader, s.shaders.current? = some (name, shader) → ∀ system,
      P { s with
        system, shaders := s.shaders.modifyCurrent fun _ => (compiler shader s.system).2.1 }) :
    P (s.compileWith compiler).2 := by
  unfold compileWith
  split
  · exact h
  · exact hchange _ _ ‹_› _

/-- A texture is made and added, or it cannot be made. -/
theorem addTexture_keeps {P : Scene σ → Prop} {name : String} {draft : TextureDraft} {s : Scene σ}
    (hfailed : ∀ system, P { s with system })
    (hmade : ∀ t system, P { s with system, textures := s.textures.insert name t }) :
    P (s.addTexture name draft).2 := by
  unfold addTexture
  split
  · exact hmade _ _
  · exact hfailed _

end Scene

namespace Parser

/-! ## Lines -/

theorem materialLine_composed (b : Unit) (t : Token) :
    Composed (LineChange (σ := σ) .material) True (materialLine b t) :=
  .bind (Attribute.readLine_composed _ t) fun change => .build (.material change)

theorem componentLine_composed (a : VertexAttribute) (t : Token) :
    Composed (LineChange (σ := σ) .vertexFormat) True (componentLine a t) :=
  .bind (Attribute.readLine_composed _ t) fun _ => .pure _

omit [RenderSystem σ] in
theorem attributeHeader_composed {may : ∀ α : Type, (Scene σ → α × Scene σ) → Prop} {looks : Prop}
    (kind : AttributeKind) : Composed may looks (attributeHeader kind) := by
  refine .bind ?_ fun name => .bind (expect_composed _) fun _ => .pure _
  unfold headerName
  split
  · refine .bind next_composed fun t => ?_
    split
    · exact .pure _
    · exact failAt_composed _ _
  · exact .pure ""

theorem attributeBlock_composed (b : Unit) (t : Token) :
    Composed (LineChange (σ := σ) .vertexFormat) True (attributeBlock b t) := by
  unfold attributeBlock
  split
  · exact unexpectedName_composed t
  · exact .bind (attributeHeader_composed _) fun a =>
      .bind (lines_composed componentLine_composed _ a) fun a => .build (.vertexFormat _)

theorem boundTexture_composed :
    Composed (LineChange (σ := σ) .textureLayer) True boundTexture := by
  refine .bind nameOrText_composed fun name => .bind (.build (.hasTexture name)) fun found => ?_
  split
  · exact .pure _
  · exact .bind (.note _) fun _ => .pure _

theorem layerLine_composed (b : Unit) (t : Token) :
    Composed (LineChange (σ := σ) .textureLayer) True (layerLine b t) := by
  unfold layerLine
  split
  · exact .bind boundTexture_composed fun _ => .build (.textureLayer _)
  · exact .bind (Attribute.readLine_composed _ t) fun _ => .build (.textureLayer _)

theorem filterLine_composed (b : Unit) (t : Token) :
    Composed (LineChange (σ := σ) .texture) True (filterLine b t) :=
  .bind (Attribute.readLine_composed _ t) fun _ => .build (.texture _)

theorem textureLine_composed (b : Unit) (t : Token) :
    Composed (LineChange (σ := σ) .texture) True (textureLine b t) := by
  unfold textureLine
  split
  · exact block_composed filterLine_composed ()
  · exact .bind (Attribute.readLine_composed _ t) fun _ => .build (.texture _)

theorem requireVersion_composed {looks : Prop} (t : Token) :
    Composed (LineChange (σ := σ) .shader) looks (requireVersion t) :=
  .bind (.build .hasVersion) fun _ => failIf_composed _ _ _

theorem codeFromFile_composed : Composed (LineChange (σ := σ) .shader) True codeFromFile := by
  refine .bind text_composed fun path => .bind (.build (.readFile path)) fun content => ?_
  split
  · exact .pure _
  · exact .bind (.note _) fun _ => .pure _

theorem stageLine_composed (b : Unit) (t : Token) :
    Composed (LineChange (σ := σ) .shader) True (stageLine b t) := by
  unfold stageLine
  split
  · exact .bind (keyword_composed _) fun _ => .build (.stage _)
  · exact .bind (requireVersion_composed t) fun _ => .bind text_composed fun _ => .build (.stage _)
  · exact .bind (requireVersion_composed t) fun _ =>
      .bind codeFromFile_composed fun _ => .build (.stage _)
  · exact unexpectedName_composed t

omit [RenderSystem σ] in
theorem stageHeader_composed {may : ∀ α : Type, (Scene σ → α × Scene σ) → Prop} {looks : Prop}
    (stage : ShaderType) : Composed may looks (stageHeader stage) := by
  refine .bind next_composed fun t => ?_
  split
  · exact .pure _
  split
  · exact .bind (expect_composed _) fun _ => .pure _
  · exact failAt_composed _ _

theorem finishStage_composed {looks : Prop} (stage : ShaderType) (entryPoint : String) :
    Composed (LineChange (σ := σ) .shader) looks (finishStage stage entryPoint) := by
  refine .bind .current fun close => .bind (.build .takeStage) fun draft => ?_
  split
  · exact failAt_composed _ _
  split
  · exact .note _
  · exact .bind (.build (.compileStage _)) fun _ => noteIf_composed _ _

theorem stageBlock_composed (b : Unit) (t : Token) :
    Composed (LineChange (σ := σ) .shader) True (stageBlock b t) := by
  unfold stageBlock
  split
  · exact unexpectedName_composed t
  · exact .bind (stageHeader_composed _) fun _ =>
      .bind (lines_composed stageLine_composed _ ()) fun _ => finishStage_composed _ _

theorem foreignDialect_composed {looks : Prop} (dialect : ShaderDialect) :
    Composed (LineChange (σ := σ) .shader) looks (foreignDialect dialect) :=
  .bind (.note _) fun _ => skipBlock_composed

theorem finishDialect_composed {looks : Prop} :
    Composed (LineChange (σ := σ) .shader) looks finishDialect :=
  .bind (.build .compileShader) fun _ => .bind (.build .currentShaderName) fun _ =>
    noteIf_composed _ _

theorem dialectBlock_composed (b : Unit) (t : Token) :
    Composed (LineChange (σ := σ) .shader) True (dialectBlock b t) := by
  unfold dialectBlock
  split
  · exact unexpectedName_composed t
  · refine .bind (.build .backend) fun backend => ?_
    split
    · exact foreignDialect_composed _
    · exact .bind (block_composed stageBlock_composed ()) fun _ => finishDialect_composed

/-! ## Declarations -/

section Headers

variable {looks : Prop}

theorem refuseDuplicate_enters (kind : ResourceKind) (name : Token) :
    Composed (EntryChange (σ := σ)) looks (refuseDuplicate kind name) :=
  .bind (.build (.declares kind name.text)) fun _ => failIf_composed _ _ _

theorem newName_enters (kind : ResourceKind) :
    Composed (EntryChange (σ := σ)) looks (newName kind) :=
  .bind declaredName_composed fun name => .bind (refuseDuplicate_enters kind name) fun _ =>
    .pure _

theorem materialHeader_enters : Composed (EntryChange (σ := σ)) looks materialHeader :=
  .bind (newName_enters _) fun name => .bind (expect_composed _) fun _ =>
    .bind (.build (.addMaterial name)) fun _ => .pure _

theorem vertexFormatHeader_enters : Composed (EntryChange (σ := σ)) looks vertexFormatHeader :=
  .bind declaredName_composed fun name => .bind (failIf_composed _ _ _) fun _ =>
    .bind (refuseDuplicate_enters _ name) fun _ => .bind (expect_composed _) fun _ =>
    .bind (.build (.addVertexFormat name.text)) fun _ => .pure _

omit [RenderSystem σ] in
theorem layerKind_composed {may : ∀ α : Type, (Scene σ → α × Scene σ) → Prop} :
    Composed may looks layerKind := by
  refine .bind next_composed fun t => ?_
  split
  · split
    · exact .pure _
    · exact failAt_composed _ _
  · exact unexpected_composed t

theorem textureLayerHeader_enters : Composed (EntryChange (σ := σ)) looks textureLayerHeader :=
  .bind (newName_enters _) fun name => .bind layerKind_composed fun kind =>
    .bind (expect_composed _) fun _ => .bind (.build (.addTextureLayer name kind)) fun _ => .pure _

theorem textureHeader_enters : Composed (EntryChange (σ := σ)) looks textureHeader :=
  .bind (newName_enters _) fun _ => .bind (expect_composed _) fun _ =>
    .bind (.build .startTexture) fun _ => .pure _

theorem finishTexture_enters (name : String) :
    Composed (EntryChange (σ := σ)) looks (finishTexture name) :=
  .bind .current fun _ => .bind (.build .takeTexture) fun draft =>
    .bind (.build (.addTexture name draft)) fun _ => failIf_composed _ _ _

theorem Composed.ofEntry {α : Type} {p : Parser (Scene σ) α} (h : Composed EntryChange looks p) :
    Composed DeclarationChange looks p :=
  h.mono fun _ _ => EntryChange.declaration

theorem refuseDuplicate_composed (kind : ResourceKind) (name : Token) :
    Composed (DeclarationChange (σ := σ)) looks (refuseDuplicate kind name) :=
  (refuseDuplicate_enters kind name).ofEntry

theorem materialHeader_composed : Composed (DeclarationChange (σ := σ)) looks materialHeader :=
  materialHeader_enters.ofEntry

theorem vertexFormatHeader_composed :
    Composed (DeclarationChange (σ := σ)) looks vertexFormatHeader :=
  vertexFormatHeader_enters.ofEntry

theorem textureLayerHeader_composed :
    Composed (DeclarationChange (σ := σ)) looks textureLayerHeader :=
  textureLayerHeader_enters.ofEntry

theorem textureHeader_composed : Composed (DeclarationChange (σ := σ)) looks textureHeader :=
  textureHeader_enters.ofEntry

theorem finishTexture_composed (name : String) :
    Composed (DeclarationChange (σ := σ)) looks (finishTexture name) :=
  (finishTexture_enters name).ofEntry

omit [RenderSystem σ] in
theorem inputLayout_composed {may : ∀ α : Type, (Scene σ → α × Scene σ) → Prop}
    (hlayout : ∀ name, may (Option InputLayout) fun s => (s.layoutNamed? name, s)) :
    Composed may looks inputLayout := by
  refine .bind next_composed fun t => ?_
  split
  · exact .pure none
  · exact .bind (.build (hlayout t.text)) fun _ => .bind (noteIf_composed _ _) fun _ =>
      .bind (expect_composed _) fun _ => .pure _
  · exact unexpected_composed t

theorem shaderHeader_composed (name : Token) :
    Composed (DeclarationChange (σ := σ)) looks (shaderHeader name) :=
  .bind (refuseDuplicate_composed _ name) fun _ =>
    .bind (inputLayout_composed .layoutNamed) fun layout =>
    .build (.addShader name.text layout)

theorem unsupportedShader_composed (name : Token) :
    Composed (DeclarationChange (σ := σ)) looks (unsupportedShader name) :=
  .bind (.note _) fun _ => skipBlock_composed

end Headers

section Declaration

variable {α : Type} {looks : Prop} {p : Parser (Scene σ) α}

/-- What the lines of a declaration do, a script may do. -/
theorem Composed.ofLine {kind : ResourceKind} (h : Composed (LineChange kind) looks p) :
    Composed SceneChange looks p :=
  h.mono fun _ _ => .line

/-- What a declaration does besides its lines, a script may do. -/
theorem Composed.ofDeclaration (h : Composed DeclarationChange looks p) :
    Composed SceneChange looks p :=
  h.mono fun _ _ => .declaration

end Declaration

theorem declaration_composed (b : Unit) (t : Token) :
    Composed (SceneChange (σ := σ)) True (declaration b t) := by
  unfold declaration
  split
  · exact .bind materialHeader_composed.ofDeclaration fun _ =>
      (lines_composed materialLine_composed _ ()).ofLine
  · refine .bind declaredName_composed fun name =>
      .bind (.build (.declaration .supportsShaders)) fun b => ?_
    split
    · exact (unsupportedShader_composed name).ofDeclaration
    · exact .bind (shaderHeader_composed name).ofDeclaration fun _ =>
        (lines_composed dialectBlock_composed _ ()).ofLine
  · exact .bind vertexFormatHeader_composed.ofDeclaration fun _ =>
      (lines_composed attributeBlock_composed _ ()).ofLine
  · exact .bind textureHeader_composed.ofDeclaration fun name =>
      .bind (lines_composed textureLine_composed _ ()).ofLine fun _ =>
      (finishTexture_composed name).ofDeclaration
  · exact .bind textureLayerHeader_composed.ofDeclaration fun _ =>
      (lines_composed layerLine_composed _ ()).ofLine
  · exact unexpectedName_composed t

/-- **A script does to its scene what `SceneChange` lists, and nothing else.** -/
theorem script_composed : Composed (SceneChange (σ := σ)) True script :=
  lines_composed declaration_composed _ ()

end Parser

end MaterialScript
