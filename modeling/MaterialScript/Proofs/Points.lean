/-
The points a load comes by.

Reading a script, or the body of a block, hands over one line after another
(`Hands`). A line may open a block (`OpensBlock`), whose body is read in the same
way. `ComesBy region u v` says that reading a region from `u` comes by `v`: where a
region starts, before each of its lines and where its reading stops, whether it
succeeds or fails.

What lines and declarations keep (`Invariant`) holds at all these points
(`Invariant.holds`).
-/
import MaterialScript.Proofs.Closing
import MaterialScript.Proofs.Names
import MaterialScript.Proofs.Triples

namespace MaterialScript.Parser

variable {ρ β : Type}

/-- The text of the first token if it is of this kind. -/
def leading? (kind : TokenKind) : List Token → Option String
  | [] => none
  | t :: _ => if t.kind = kind then some t.text else none

theorem run_of_answer {α : Type} {p : Parser ρ α} {s : State ρ} {answer : Except ScriptError α}
    (h : (p.run s).1 = answer) : p.run s = (answer, (p.run s).2) :=
  Prod.ext h rfl

/-! ## Lines -/

section Lines

variable {closing : TokenKind} {named : β → Token → Parser ρ β} {b b' : β} {s t : State ρ}

/-- What lines that are read keep holds where the next one is handed over. -/
theorem HandsLine.keeps {I : β → ρ → Prop} {E : ρ → Prop}
    (hnamed : ∀ b t, Triple (I b) (named b t) I E) (h : HandsLine closing named b s b' t)
    (hs : I b s.scene) : I b' t.scene := by
  have hnamed : ∀ b t, Triple (I b) (named b t) I fun _ => True := fun b t =>
    (hnamed b t).mono (fun _ h => h) (fun _ _ h => h) fun _ _ => trivial
  induction h with
  | here => exact hs
  | @later b b' _ s u v _ _ hline _ ih =>
    exact ih ((Triple.line hnamed (fun _ _ _ => trivial) b _).ok (s := s.advance true) hs hline)

/-- Where a line is handed over, lines go on with it. -/
theorem HandsLine.run_eq (hclosing : closing ≠ .name) (h : HandsLine closing named b s b' t) :
    (lines closing named b).run s =
      match (named b' t.cursor.current).run t with
      | (.ok b'', u) => (lines closing named b'').run u
      | (.error e, u) => (.error e, u) := by
  induction h with
  | @here b s hend hname hdiscard =>
    have hopen : (s.advance true).cursor.current.kind ≠ closing := by
      rw [hname]
      exact hclosing.symm
    have hline : line named b (s.advance true).cursor.current =
        named b (s.advance true).cursor.current := by
      rw [line, hname]
      exact if_neg hdiscard
    rcases hrun : (named b (s.advance true).cursor.current).run (s.advance true) with
      ⟨e | b'', u⟩
    · refine runOverTokens_error hend ?_
      rw [lineOrClose, if_neg hopen, run_bind, hline, hrun]
    · refine lines_line hend hopen ?_
      rw [hline, hrun]
  | later hend hopen hline _ ih =>
    rw [lines_line hend hopen hline]
    exact ih

end Lines

/-! ## Regions -/

section Load

variable {σ : Type} [RenderSystem σ]

/-- The kind of declaration that a block belongs to. -/
def BlockKind.resource : BlockKind → ResourceKind
  | material => .material
  | shader | dialect | stage => .shader
  | vertexFormat | component _ => .vertexFormat
  | texture | filter => .texture
  | textureLayer => .textureLayer

/-- The block of a declaration. -/
def declaredBlock : ResourceKind → BlockKind
  | .material => .material
  | .shader => .shader
  | .vertexFormat => .vertexFormat
  | .texture => .texture
  | .textureLayer => .textureLayer

/-- The body of a block does what the lines of its declaration do. -/
theorem BlockKind.body_composed (kind : BlockKind) :
    Composed (LineChange (σ := σ) kind.resource) True kind.body := by
  cases kind with
  | material => exact lines_composed materialLine_composed _ ()
  | shader => exact lines_composed dialectBlock_composed _ ()
  | dialect => exact lines_composed stageBlock_composed _ ()
  | stage => exact lines_composed stageLine_composed _ ()
  | vertexFormat => exact lines_composed attributeBlock_composed _ ()
  | component a => exact .bind (lines_composed componentLine_composed _ a) fun _ => .pure ()
  | texture => exact lines_composed textureLine_composed _ ()
  | filter => exact lines_composed filterLine_composed _ ()
  | textureLayer => exact lines_composed layerLine_composed _ ()

theorem declaredBlock_composed (kind : ResourceKind) :
    Composed (LineChange (σ := σ) kind) True (declaredBlock kind).body := by
  have hcomposed := (declaredBlock kind).body_composed (σ := σ)
  cases kind <;> exact hcomposed

/-- A declaration is read in parts. `Q kind` holds in the block of a declaration of this kind. -/
theorem Triple.declaration_of_parts {P E : Scene σ → Prop} {Q : ResourceKind → Scene σ → Prop}
    (hPE : ∀ s, P s → E s) (hclose : ∀ kind s, Q kind s → P s)
    (hmaterial : Triple P materialHeader (fun _ => Q .material) E)
    (hshader : ∀ name, Triple P (shaderHeader name) (fun _ => Q .shader) E)
    (hvertexFormat : Triple P vertexFormatHeader (fun _ => Q .vertexFormat) E)
    (htexture : Triple P textureHeader (fun _ => Q .texture) E)
    (htextureLayer : Triple P textureLayerHeader (fun _ => Q .textureLayer) E)
    (hbody : ∀ kind, Triple (Q kind) (declaredBlock kind).body (fun _ => Q kind) E)
    (hfinish : ∀ name, Triple (Q .texture) (finishTexture name) (fun _ => P) E)
    (b : Unit) (t : Token) : Triple P (declaration b t) (fun _ => P) E := by
  have looks : ∀ {α : Type} {p : Parser (Scene σ) α}, Composed LooksOnly True p →
      Triple P p (fun _ => P) E := fun hp => .of_looksOnly hp hPE
  have body : ∀ kind, Triple (Q kind) (declaredBlock kind).body (fun _ => P) E := fun kind =>
    (hbody kind).mono (fun _ h => h) (fun _ => hclose kind) fun _ h => h
  unfold Parser.declaration
  split
  · exact .bind hmaterial fun _ => body .material
  · refine .bind (looks declaredName_composed) fun name =>
      .bind (looks (.build fun _ => rfl)) fun supported => ?_
    split
    · exact looks (.bind (.note _) fun _ => skipBlock_composed)
    · exact .bind (hshader name) fun _ => body .shader
  · exact .bind hvertexFormat fun _ => body .vertexFormat
  · exact .bind htexture fun name => .bind (hbody .texture) fun _ => hfinish name
  · exact .bind htextureLayer fun _ => body .textureLayer
  · exact looks (unexpectedName_composed t)

/-- A declaration keeps what its parts keep. -/
theorem Triple.declaration {P E : Scene σ → Prop} (hPE : ∀ s, P s → E s)
    (hdeclaration : ∀ {α f s}, DeclarationChange α f → P s → P (f s).2)
    (hbody : ∀ kind, Triple P (declaredBlock kind).body (fun _ => P) E) (b : Unit) (t : Token) :
    Triple P (declaration b t) (fun _ => P) E := by
  have part : ∀ {α : Type} {p : Parser (Scene σ) α}, Composed DeclarationChange True p →
      Triple P p (fun _ => P) E := fun hp => .of_composed hp (fun _ _ _ => hdeclaration) hPE
  exact declaration_of_parts hPE (fun _ _ h => h) (part materialHeader_composed)
    (fun name => part (shaderHeader_composed name)) (part vertexFormatHeader_composed)
    (part textureHeader_composed) (part textureLayerHeader_composed) hbody
    (fun name => part (finishTexture_composed name)) b t

/-- Reads a script, or the body of a block. -/
def regionBody : Option BlockKind → Parser (Scene σ) Unit
  | none => script
  | some kind => kind.body

/-- Reading a script, or the body of a block, comes from `u` to hand over a line in `v`. -/
def Hands : Option BlockKind → State (Scene σ) → State (Scene σ) → Prop
  | none, u, v => HandsLine .endOfFile declaration () u () v
  | some .material, u, v => HandsLine (.symbol .rightBrace) materialLine () u () v
  | some .shader, u, v => HandsLine (.symbol .rightBrace) dialectBlock () u () v
  | some .dialect, u, v => HandsLine (.symbol .rightBrace) stageBlock () u () v
  | some .stage, u, v => HandsLine (.symbol .rightBrace) stageLine () u () v
  | some .vertexFormat, u, v => HandsLine (.symbol .rightBrace) attributeBlock () u () v
  | some (.component a), u, v => ∃ a', HandsLine (.symbol .rightBrace) componentLine a u a' v
  | some .texture, u, v => HandsLine (.symbol .rightBrace) textureLine () u () v
  | some .filter, u, v => HandsLine (.symbol .rightBrace) filterLine () u () v
  | some .textureLayer, u, v => HandsLine (.symbol .rightBrace) layerLine () u () v

/-- Where a block hands over a line, what its lines keep still holds. -/
theorem Hands.keeps {kind : BlockKind} {P : Scene σ → Prop}
    (hP : ∀ {α : Type} {f : Scene σ → α × Scene σ} {s : Scene σ},
      LineChange kind.resource α f → P s → P (f s).2)
    {u v : State (Scene σ)} (h : Hands (some kind) u v) (hu : P u.scene) : P v.scene := by
  have keeps : ∀ {β : Type} {named : β → Token → Parser (Scene σ) β} {b b'},
      (∀ b t, Composed (LineChange kind.resource) True (named b t)) →
      HandsLine (.symbol .rightBrace) named b u b' v → P v.scene := fun hnamed h =>
    h.keeps (I := fun _ => P)
      (fun b t => .of_composed (hnamed b t) (fun _ _ _ => hP) fun _ h => h) hu
  cases kind with
  | material => exact keeps materialLine_composed h
  | shader => exact keeps dialectBlock_composed h
  | dialect => exact keeps stageBlock_composed h
  | stage => exact keeps stageLine_composed h
  | vertexFormat => exact keeps attributeBlock_composed h
  | component a =>
    obtain ⟨a', h⟩ := h
    exact keeps componentLine_composed h
  | texture => exact keeps textureLine_composed h
  | filter => exact keeps filterLine_composed h
  | textureLayer => exact keeps layerLine_composed h

/-- The lines of a block declare nothing. -/
theorem Hands.names {block : BlockKind} {u v : State (Scene σ)} (h : Hands (some block) u v)
    (kind : ResourceKind) : v.scene.names kind = u.scene.names kind :=
  h.keeps (P := fun s => s.names kind = u.scene.names kind)
    (fun hf hs => (lineChange_names hf _ kind).trans hs) rfl

/-- The line handed over in `v` declares a shader; its name has been read in `t`, and its body
starts in `w`. -/
structure DeclaresShader (name : Token) (v t w : State (Scene σ)) : Prop where
  keyword : v.cursor.current.text = "shader"
  declared : declaredName.run v = (.ok name, t)
  supported : RenderSystem.supportsShaders t.scene.system
  header : (shaderHeader name).run t = (.ok (), w)

/-- The line handed over in `v` opens the block of the dialect that is read; its body starts in
`w`. -/
structure OpensDialect (v w : State (Scene σ)) : Prop where
  active : ∃ dialect, ShaderDialect.ofKeyword? v.cursor.current.text = some dialect ∧
    (RenderSystem.backend v.scene.system).dialect? = some dialect
  brace : (expect .leftBrace).run v = (.ok (), w)

/-- The line that a region hands over in `v` opens a block of a kind; its body starts in `w`. -/
inductive OpensBlock : Option BlockKind → State (Scene σ) → BlockKind → State (Scene σ) → Prop
  | material {v w : State (Scene σ)} {name : String} : v.cursor.current.text = "material" →
      materialHeader.run v = (.ok name, w) → OpensBlock none v .material w
  | shader {v t w : State (Scene σ)} {name : Token} : DeclaresShader name v t w →
      OpensBlock none v .shader w
  | vertexFormat {v w : State (Scene σ)} {name : String} : v.cursor.current.text = "vertexFormat" →
      vertexFormatHeader.run v = (.ok name, w) → OpensBlock none v .vertexFormat w
  | texture {v w : State (Scene σ)} {name : String} : v.cursor.current.text = "texture" →
      textureHeader.run v = (.ok name, w) → OpensBlock none v .texture w
  | textureLayer {v w : State (Scene σ)} {name : String} : v.cursor.current.text = "textureLayer" →
      textureLayerHeader.run v = (.ok name, w) → OpensBlock none v .textureLayer w
  | dialect {v w : State (Scene σ)} : OpensDialect v w → OpensBlock (some .shader) v .dialect w
  | stage {v w : State (Scene σ)} {stage : ShaderType} {entryPoint : String} :
      ShaderType.vocabulary.find? v.cursor.current.text = some stage →
      (stageHeader stage).run v = (.ok entryPoint, w) → OpensBlock (some .dialect) v .stage w
  | component {v w : State (Scene σ)} {kind : AttributeKind} {a : VertexAttribute} :
      AttributeKind.ofKeyword? v.cursor.current.text = some kind →
      (attributeHeader kind).run v = (.ok a, w) → OpensBlock (some .vertexFormat) v (.component a) w
  | filter {v w : State (Scene σ)} : v.cursor.current.text = "filter" →
      (expect .leftBrace).run v = (.ok (), w) → OpensBlock (some .texture) v .filter w

/-- Reading a region from `u` comes by `v`. -/
inductive ComesBy : Option BlockKind → State (Scene σ) → State (Scene σ) → Prop
  | start {region : Option BlockKind} {u : State (Scene σ)} : ComesBy region u u
  | line {region : Option BlockKind} {u v : State (Scene σ)} : Hands region u v → ComesBy region u v
  | block {region : Option BlockKind} {u v w x : State (Scene σ)} {kind : BlockKind} :
      Hands region u v → OpensBlock region v kind w → ComesBy (some kind) w x → ComesBy region u x
  | stop {region : Option BlockKind} {u : State (Scene σ)} :
      ComesBy region u ((regionBody region).run u).2

/-! ## After a shader has been declared -/

/-- Once the body of a shader has started in `u`, a load comes by `v`. -/
inductive Since (u v : State (Scene σ)) : Prop
  | body : ComesBy (some .shader) u v → Since u v
  | script {w : State (Scene σ)} : BlockKind.shader.body.run u = (.ok (), w) → ComesBy none w v →
      Since u v

namespace DeclaresShader

variable {name : Token} {s₀ s t u : State (Scene σ)} (h : DeclaresShader name s t u)
include h

theorem onward : s.Onward u := (onward_of_run h.declared).trans (onward_of_run h.header)

/-- After the header, the declaration reads the body. -/
theorem run_eq : (declaration () s.cursor.current).run s = BlockKind.shader.body.run u := by
  have hsupported : (!RenderSystem.supportsShaders t.scene.system) = false := by simp [h.supported]
  unfold declaration
  rw [h.keyword]
  change shader.run s = _
  rw [shader, run_bind, h.declared]
  simp only [run_bind, inspect, Parser.build, hsupported, Bool.false_eq_true, if_false, h.header]
  rfl

/-- The load comes by the state the script ends in. -/
theorem since_script (hs : Hands none s₀ s) : Since u (script.run s₀).2 := by
  have hrun : script.run s₀ = _ := HandsLine.run_eq nofun hs
  rw [hrun, h.run_eq]
  rcases hbody : BlockKind.shader.body.run u with ⟨e | _, w⟩
  · have hstop : (BlockKind.shader.body.run u).2 = w := by rw [hbody]
    exact .body (hstop ▸ .stop)
  · exact .script hbody .stop

end DeclaresShader

/-! ## What holds at all points -/

/-- What lines and declarations keep: `J (some kind)` in the block of a declaration of this kind,
`J none` outside. -/
structure Invariant (J : Option ResourceKind → Scene σ → Prop) : Prop where
  line {kind : ResourceKind} {α : Type} {f : Scene σ → α × Scene σ} {s : Scene σ} :
    LineChange kind α f → J (some kind) s → J (some kind) (f s).2
  close {kind : ResourceKind} {s : Scene σ} : J (some kind) s → J none s
  addMaterial {name : String} {s : Scene σ} : name ∉ s.names .material → J none s →
    J (some .material) (s.addMaterial name)
  addShader {name : String} {layout : Option InputLayout} {s : Scene σ} :
    name ∉ s.names .shader → J none s → J (some .shader) (s.addShader name layout)
  addVertexFormat {name : String} {s : Scene σ} :
    ¬ BuiltinFormat.reserved.toList <+: name.toList → name ∉ s.names .vertexFormat → J none s →
    J (some .vertexFormat) (s.addVertexFormat name)
  addTextureLayer {name : String} {kind : LayerKind} {s : Scene σ} :
    name ∉ s.names .textureLayer → J none s → J (some .textureLayer) (s.addTextureLayer name kind)
  startTexture {s : Scene σ} : J none s → J (some .texture) s.startTexture
  addTexture {name : String} {draft : TextureDraft} {s : Scene σ} : J none s →
    J none (s.addTexture name draft).2

namespace Invariant

variable {J : Option ResourceKind → Scene σ → Prop} (hJ : Invariant J)
include hJ

/-- The parts of a declaration's block. -/
theorem ofLines {kind : ResourceKind} {α : Type} {p : Parser (Scene σ) α}
    (hp : Composed (LineChange kind) True p) :
    Triple (J (some kind)) p (fun _ => J (some kind)) (J (some kind)) :=
  .of_composed hp (fun _ _ _ => hJ.line) fun _ h => h

omit hJ [RenderSystem σ] in
/-- A header that opens a block leads into it. -/
theorem ofHeader {kind : ResourceKind} {α : Type} {p : Parser (Scene σ) α}
    {A : Scene σ → α → Scene σ → Prop} (hp : Commits p A)
    (hA : ∀ {r a r'}, A r a r' → J none r → J (some kind) r') :
    Triple (J none) p (fun _ => J (some kind)) (J none) :=
  .of_runs (fun hs hrun => hA (hp.ok hrun) hs) fun hs hrun => by rwa [hp.failed hrun]

theorem materialHeader :
    Triple (J none) materialHeader (fun _ => J (some .material)) (J none) := by
  refine ofHeader materialHeader_commits ?_
  rintro r name _ ⟨hnew, rfl⟩ hr
  exact hJ.addMaterial hnew hr

theorem shaderHeader (name : Token) :
    Triple (J none) (shaderHeader name) (fun _ => J (some .shader)) (J none) := by
  refine ofHeader (shaderHeader_commits name) ?_
  rintro r _ _ ⟨hnew, layout, rfl⟩ hr
  exact hJ.addShader hnew hr

theorem vertexFormatHeader :
    Triple (J none) vertexFormatHeader (fun _ => J (some .vertexFormat)) (J none) := by
  refine ofHeader vertexFormatHeader_commits ?_
  rintro r name _ ⟨hfree, hnew, rfl⟩ hr
  exact hJ.addVertexFormat hfree hnew hr

theorem textureHeader :
    Triple (J none) textureHeader (fun _ => J (some .texture)) (J none) := by
  refine ofHeader textureHeader_commits ?_
  rintro r name _ ⟨-, rfl⟩ hr
  exact hJ.startTexture hr

theorem textureLayerHeader :
    Triple (J none) textureLayerHeader (fun _ => J (some .textureLayer)) (J none) := by
  refine ofHeader textureLayerHeader_commits ?_
  rintro r name _ ⟨hnew, kind, rfl⟩ hr
  exact hJ.addTextureLayer hnew hr

theorem finishTexture (name : String) :
    Triple (J (some .texture)) (finishTexture name) (fun _ => J none) (J none) := by
  refine .bind (.of_looksOnly .current fun _ h => hJ.close h) fun close =>
    .bind (Q := fun _ => J none) (.build fun r hr => ?_) fun draft =>
    .bind (.build fun r hr => hJ.addTexture hr) fun made =>
    .of_looksOnly (failIf_composed _ _ _) fun _ h => h
  have hstart : J (some .texture) r.startTexture := hJ.line (.texture fun _ => .default) hr
  exact hJ.close hstart

theorem declaration (b : Unit) (t : Token) :
    Triple (J none) (declaration b t) (fun _ => J none) (J none) := by
  have hbody (kind : ResourceKind) :
      Triple (J (some kind)) (declaredBlock kind).body (fun _ => J (some kind)) (J none) :=
    (hJ.ofLines (declaredBlock_composed kind)).mono (fun _ h => h) (fun _ _ h => h) fun _ h =>
      hJ.close h
  exact .declaration_of_parts (Q := fun kind => J (some kind)) (fun _ h => h) (fun _ _ => hJ.close)
    hJ.materialHeader hJ.shaderHeader hJ.vertexFormatHeader hJ.textureHeader hJ.textureLayerHeader
    hbody hJ.finishTexture b t

/-- The line of a declaration that opens a block leads into it. -/
theorem opens {region : Option BlockKind} {kind : BlockKind} {v w : State (Scene σ)}
    (h : OpensBlock region v kind w) (hv : J (region.map BlockKind.resource) v.scene) :
    J (some kind.resource) w.scene := by
  cases h with
  | material _ hrun => exact hJ.materialHeader.ok hv hrun
  | shader h =>
    have hv : J none v.scene := hv
    rw [← scene_eq_of_run declaredName_composed h.declared] at hv
    exact (hJ.shaderHeader _).ok hv h.header
  | vertexFormat _ hrun => exact hJ.vertexFormatHeader.ok hv hrun
  | texture _ hrun => exact hJ.textureHeader.ok hv hrun
  | textureLayer _ hrun => exact hJ.textureLayerHeader.ok hv hrun
  | dialect h => exact (hJ.ofLines (expect_composed _)).ok hv h.brace
  | stage _ hrun => exact (hJ.ofLines (stageHeader_composed _)).ok hv hrun
  | component _ hrun => exact (hJ.ofLines (attributeHeader_composed _)).ok hv hrun
  | filter _ hrun => exact (hJ.ofLines (expect_composed _)).ok hv hrun

theorem body (kind : BlockKind) :
    Triple (J (some kind.resource)) kind.body (fun _ => J (some kind.resource))
      (J (some kind.resource)) :=
  hJ.ofLines kind.body_composed

theorem script : Triple (J none) script (fun _ => J none) (J none) :=
  .lines hJ.declaration (fun _ _ h => h) ()

theorem hands {region : Option BlockKind} {u v : State (Scene σ)} (h : Hands region u v)
    (hu : J (region.map BlockKind.resource) u.scene) :
    J (region.map BlockKind.resource) v.scene := by
  cases region with
  | none => exact HandsLine.keeps (I := fun _ => J none) hJ.declaration h hu
  | some kind => exact h.keeps hJ.line hu

/-- An invariant holds at every point of a region if it holds at its start. -/
theorem holds {region : Option BlockKind} {u v : State (Scene σ)} (h : ComesBy region u v)
    (hu : J (region.map BlockKind.resource) u.scene) : J none v.scene := by
  have outside : ∀ {kind : Option ResourceKind} {s : Scene σ}, J kind s → J none s := by
    intro kind s hs
    cases kind with
    | none => exact hs
    | some kind => exact hJ.close hs
  induction h with
  | start => exact outside hu
  | line h => exact outside (hJ.hands h hu)
  | block h hblock _ ih => exact ih (hJ.opens hblock (hJ.hands h hu))
  | @stop region u =>
    cases region with
    | none => exact hJ.script.ends hu
    | some kind => exact outside ((hJ.body kind).ends hu)

theorem since {u v : State (Scene σ)} (h : Since u v) (hu : J (some .shader) u.scene) :
    J none v.scene := by
  cases h with
  | body h => exact hJ.holds h hu
  | script hbody h => exact hJ.holds h (hJ.close ((hJ.body .shader).ok hu hbody))

end Invariant

/-- No line changes the files at hand. -/
theorem lineChange_files {kind : ResourceKind} {α : Type} {f : Scene σ → α × Scene σ}
    (hf : LineChange kind α f) (s : Scene σ) : (f s).2.files = s.files := by
  have compile : ∀ compiler, (Scene.compileWith compiler s).2.files = s.files := fun _ =>
    Scene.compileWith_keeps (P := fun t => t.files = s.files) rfl fun _ _ _ _ => rfl
  cases hf
  case compileStage => exact compile _
  case compileShader => exact compile _
  all_goals rfl

theorem files_invariant (files : Files) : Invariant fun _ (s : Scene σ) => s.files = files where
  line hf h := (lineChange_files hf _).trans h
  close h := h
  addMaterial _ h := h
  addShader _ h := h
  addVertexFormat _ _ h := h
  addTextureLayer _ h := h
  startTexture h := h
  addTexture := by
    intro name draft s h
    exact Scene.addTexture_keeps (P := fun s => s.files = files) (fun _ => h) fun _ _ => h

end Load

end MaterialScript.Parser
