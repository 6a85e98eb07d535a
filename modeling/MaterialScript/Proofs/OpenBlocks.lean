/-
Blocks that a load has opened, and what is left to do after them.

The lines of a block of any kind are read by one parser (`BlockKind.line`), which
carries on what they have made. `InBlock s₀ block name u k`: a script started in
`s₀` has come to the lines of a block in `u`, in the declaration of `name`, and
goes on with `k` after them (`InBlock.run_eq`). So an error of a line is the
answer of the whole script, in the state of the line (`InBlock.fails`). While its
block is open, the resource is the one declared last (`InBlock.current`).
-/
import MaterialScript.Proofs.Points

namespace MaterialScript.Parser

variable {ρ β : Type}

/-- Where a line is handed over, lines are that line and the lines after it. -/
theorem HandsLine.run_bind {closing : TokenKind} {named : β → Token → Parser ρ β} {b b' : β}
    {s t : State ρ} (hclosing : closing ≠ .name) (h : HandsLine closing named b s b' t) :
    (lines closing named b).run s = (named b' t.cursor.current >>= lines closing named).run t :=
  h.run_eq hclosing

section Load

variable {σ : Type} [RenderSystem σ]

/-! ## Lines of all blocks -/

namespace BlockKind

/-- What the lines of a block carry on: the attribute they describe, or nothing. -/
abbrev Carried : BlockKind → Type
  | component _ => VertexAttribute
  | material | shader | dialect | stage | vertexFormat | texture | filter | textureLayer => Unit

/-- What the first line of a block starts from. -/
def initial : (kind : BlockKind) → kind.Carried
  | component a => a
  | material | shader | dialect | stage | vertexFormat | texture | filter | textureLayer => ()

/-- A line of a block. -/
def line : (kind : BlockKind) → kind.Carried → Token → Parser (Scene σ) kind.Carried
  | material => materialLine
  | shader => dialectBlock
  | dialect => stageBlock
  | stage => stageLine
  | vertexFormat => attributeBlock
  | component _ => componentLine
  | texture => textureLine
  | filter => filterLine
  | textureLayer => layerLine

/-- The lines of a block, from after its `{` up to and with its `}`. -/
def lines (kind : BlockKind) : kind.Carried → Parser (Scene σ) kind.Carried :=
  blockBody kind.line

theorem line_composed (kind : BlockKind) (c : kind.Carried) (t : Token) :
    Composed (LineChange (σ := σ) kind.resource) True (kind.line c t) := by
  cases kind with
  | material => exact materialLine_composed c t
  | shader => exact dialectBlock_composed c t
  | dialect => exact stageBlock_composed c t
  | stage => exact stageLine_composed c t
  | vertexFormat => exact attributeBlock_composed c t
  | component a => exact componentLine_composed c t
  | texture => exact textureLine_composed c t
  | filter => exact filterLine_composed c t
  | textureLayer => exact layerLine_composed c t

theorem lines_composed (kind : BlockKind) (c : kind.Carried) :
    Composed (LineChange (σ := σ) kind.resource) True (kind.lines c) :=
  Parser.lines_composed kind.line_composed _ c

/-- From `u` on, the lines of a block lead to the line that is handed over in `v`, after lines that
have made `c`. -/
def Comes (kind : BlockKind) (u : State (Scene σ)) (c : kind.Carried) (v : State (Scene σ)) :
    Prop :=
  HandsLine (.symbol .rightBrace) kind.line kind.initial u c v

end BlockKind

theorem exists_comes_iff {kind : BlockKind} {u v : State (Scene σ)} :
    (∃ c, kind.Comes u c v) ↔ Hands (some kind) u v := by
  cases kind with
  | component a => exact Iff.rfl
  | _ => exact ⟨fun ⟨_, h⟩ => h, fun h => ⟨(), h⟩⟩

/-! ## What is left to do -/

/-- A script started in `s₀` has come to the lines of a block in a state, in the declaration of a
resource with this name; after the lines it goes on with what stands last. -/
inductive InBlock (s₀ : State (Scene σ)) :
    (kind : BlockKind) → String → State (Scene σ) → (kind.Carried → Parser (Scene σ) Unit) → Prop
  | material {s u : State (Scene σ)} {name : String} : Declares s₀ "material" s →
      materialHeader.run s = (.ok name, u) → InBlock s₀ .material name u fun _ => script
  | shader {s t u : State (Scene σ)} {name : Token} : Hands none s₀ s → DeclaresShader name s t u →
      InBlock s₀ .shader name.text u fun _ => script
  | dialect {s t u : State (Scene σ)} {name : String}
      {k : BlockKind.shader.Carried → Parser (Scene σ) Unit} :
      InBlock s₀ .shader name s k → BlockKind.shader.Comes s () t → OpensDialect t u →
      InBlock s₀ .dialect name u fun _ => do
        finishDialect
        let c ← BlockKind.shader.lines ()
        k c
  | stage {s t u : State (Scene σ)} {name entryPoint : String} {stage : ShaderType}
      {k : BlockKind.dialect.Carried → Parser (Scene σ) Unit} :
      InBlock s₀ .dialect name s k → BlockKind.dialect.Comes s () t →
      ShaderType.vocabulary.find? t.cursor.current.text = some stage →
      (stageHeader stage).run t = (.ok entryPoint, u) →
      InBlock s₀ .stage name u fun _ => do
        finishStage stage entryPoint
        let c ← BlockKind.dialect.lines ()
        k c
  | vertexFormat {s u : State (Scene σ)} {name : String} : Declares s₀ "vertexFormat" s →
      vertexFormatHeader.run s = (.ok name, u) → InBlock s₀ .vertexFormat name u fun _ => script
  | component {s t u : State (Scene σ)} {name : String} {kind : AttributeKind} {a : VertexAttribute}
      {k : BlockKind.vertexFormat.Carried → Parser (Scene σ) Unit} :
      InBlock s₀ .vertexFormat name s k → BlockKind.vertexFormat.Comes s () t →
      AttributeKind.ofKeyword? t.cursor.current.text = some kind →
      (attributeHeader kind).run t = (.ok a, u) →
      InBlock s₀ (.component a) name u fun a' => do
        modify (Scene.changeVertexFormat (·.push a'))
        let c ← BlockKind.vertexFormat.lines ()
        k c
  | texture {s u : State (Scene σ)} {name : String} : Declares s₀ "texture" s →
      textureHeader.run s = (.ok name, u) →
      InBlock s₀ .texture name u fun _ => do
        finishTexture name
        script
  | filter {s t u : State (Scene σ)} {name : String}
      {k : BlockKind.texture.Carried → Parser (Scene σ) Unit} :
      InBlock s₀ .texture name s k → BlockKind.texture.Comes s () t →
      t.cursor.current.text = "filter" → (expect .leftBrace).run t = (.ok (), u) →
      InBlock s₀ .filter name u fun _ => do
        let c ← BlockKind.texture.lines ()
        k c
  | textureLayer {s u : State (Scene σ)} {name : String} : Declares s₀ "textureLayer" s →
      textureLayerHeader.run s = (.ok name, u) →
      InBlock s₀ .textureLayer name u fun _ => script

/-- Every block that a load comes to read is opened. -/
theorem Entered.inBlock {s₀ u : State (Scene σ)} {kind : BlockKind} (h : Entered s₀ kind u) :
    ∃ name k, InBlock s₀ kind name u k := by
  induction h with
  | material hs hrun => exact ⟨_, _, .material hs hrun⟩
  | shader hs hname hsupported hrun => exact ⟨_, _, .shader hs.1 ⟨hs.2, hname, hsupported, hrun⟩⟩
  | dialect _ ht hword hbackend hrun ih =>
    obtain ⟨name, k, h⟩ := ih
    exact ⟨_, _, .dialect h ht ⟨⟨_, hword, hbackend⟩, hrun⟩⟩
  | stage _ ht hword hrun ih =>
    obtain ⟨name, k, h⟩ := ih
    exact ⟨_, _, .stage h ht hword hrun⟩
  | vertexFormat hs hrun => exact ⟨_, _, .vertexFormat hs hrun⟩
  | component _ ht hword hrun ih =>
    obtain ⟨name, k, h⟩ := ih
    exact ⟨_, _, .component h ht hword hrun⟩
  | texture hs hrun => exact ⟨_, _, .texture hs hrun⟩
  | filter _ ht hword hrun ih =>
    obtain ⟨name, k, h⟩ := ih
    exact ⟨_, _, .filter h ht hword hrun⟩
  | textureLayer hs hrun => exact ⟨_, _, .textureLayer hs hrun⟩

theorem InBlock.entered {s₀ u : State (Scene σ)} {kind : BlockKind} {name : String}
    {k : kind.Carried → Parser (Scene σ) Unit} (h : InBlock s₀ kind name u k) :
    Entered s₀ kind u := by
  induction h with
  | material hs hrun => exact .material hs hrun
  | shader hs h => exact .shader ⟨hs, h.keyword⟩ h.declared h.supported h.header
  | dialect _ ht hopens ih =>
    obtain ⟨dialect, hword, hbackend⟩ := hopens.active
    exact .dialect ih ht hword hbackend hopens.brace
  | stage _ ht hword hrun ih => exact .stage ih ht hword hrun
  | vertexFormat hs hrun => exact .vertexFormat hs hrun
  | component _ ht hword hrun ih => exact .component ih ht hword hrun
  | texture hs hrun => exact .texture hs hrun
  | filter _ ht hword hrun ih => exact .filter ih ht hword hrun
  | textureLayer hs hrun => exact .textureLayer hs hrun

section Current

variable {s₀ u v : State (Scene σ)} {kind : BlockKind} {name : String}
  {k : kind.Carried → Parser (Scene σ) Unit} {c : kind.Carried}

theorem BlockKind.Comes.names (h : kind.Comes u c v) (k : ResourceKind) :
    v.scene.names k = u.scene.names k :=
  (exists_comes_iff.1 ⟨c, h⟩).names k

/-- The resource of an open block is the one declared last; a texture is declared when its block is
closed. -/
theorem InBlock.current (h : InBlock s₀ kind name u k) (hkind : kind.resource ≠ .texture) :
    (u.scene.names kind.resource).getLast? = some name := by
  have declared : ∀ {r r' : Resources} {k : ResourceKind} {name : String}, r.Adds r' k name →
      (r'.names k).getLast? = some name := by
    intro r r' k name hadds
    rw [hadds k]
    simp
  induction h with
  | material _ hrun => exact declared (materialHeader_names hrun)
  | shader _ hshader => exact declared (shaderHeader_names hshader.header)
  | dialect _ ht hopens ih =>
    have hscene := scene_eq_of_run (expect_composed _) hopens.brace
    rw [hscene, ht.names]
    exact ih hkind
  | stage _ ht _ hrun ih =>
    have hscene := scene_eq_of_run (stageHeader_composed _) hrun
    rw [hscene, ht.names]
    exact ih hkind
  | vertexFormat _ hrun => exact declared (vertexFormatHeader_names hrun)
  | component _ ht _ hrun ih =>
    rw [scene_eq_of_run (attributeHeader_composed _) hrun, ht.names]
    exact ih hkind
  | texture => exact absurd rfl hkind
  | filter => exact absurd rfl hkind
  | textureLayer _ hrun => exact declared (textureLayerHeader_names hrun)

end Current

section RunEq

variable {s₀ s t u v w : State (Scene σ)} {kind : BlockKind} {name : String}
  {k : kind.Carried → Parser (Scene σ) Unit} {c : kind.Carried}

/-- Where a line is handed over, a block and what follows it are that line, the lines after it, and
what follows. -/
theorem BlockKind.Comes.run_eq (h : kind.Comes u c v) :
    (kind.lines kind.initial >>= k).run u =
      (kind.line c v.cursor.current >>= fun c => kind.lines c >>= k).run v := by
  have hlines : (kind.lines kind.initial).run u =
      (kind.line c v.cursor.current >>= kind.lines).run v := HandsLine.run_bind nofun h
  rw [run_bind, hlines, ← run_bind, run_bind_assoc]

/-- After the name that opens it, the block of the active dialect is read. -/
theorem OpensDialect.run_eq (h : OpensDialect t u) :
    (dialectBlock () t.cursor.current).run t =
      (BlockKind.dialect.lines () >>= fun _ => finishDialect).run u := by
  obtain ⟨dialect, hword, hbackend⟩ := h.active
  simp only [dialectBlock, hword]
  rw [run_bind]
  simp only [inspect, build]
  rw [if_neg (by simp [hbackend]), block, run_bind_assoc]
  exact run_bind_of_ok h.brace

/-- **A script that has come to a block reads the lines of the block and goes on.** -/
theorem InBlock.run_eq (h : InBlock s₀ kind name u k) :
    script.run s₀ = (kind.lines kind.initial >>= k).run u := by
  -- a declaration comes to the lines of its block, and after them does what it does last
  have declared : ∀ (kind : BlockKind) (last : kind.Carried → Parser (Scene σ) Unit)
      {keyword : String} {s u : State (Scene σ)}, Declares s₀ keyword s →
      (declaration () s.cursor.current).run s = (kind.lines kind.initial >>= last).run u →
      script.run s₀ = (kind.lines kind.initial >>= fun c => last c >>= fun _ => script).run u := by
    intro kind last keyword s u hs hdeclaration
    have hscript : script.run s₀ = (declaration () s.cursor.current >>= fun _ => script).run s :=
      hs.1.run_bind nofun
    rw [hscript, run_bind, hdeclaration, ← run_bind, run_bind_assoc]
  -- and so does a block within another
  have within : ∀ (outer kind : BlockKind) (last : kind.Carried → Parser (Scene σ) outer.Carried)
      {s t u : State (Scene σ)} {c : outer.Carried}
      {k : outer.Carried → Parser (Scene σ) Unit}, outer.Comes s c t →
      (outer.line c t.cursor.current).run t = (kind.lines kind.initial >>= last).run u →
      script.run s₀ = (outer.lines outer.initial >>= k).run s →
      script.run s₀ =
        (kind.lines kind.initial >>= fun c => last c >>= fun c => outer.lines c >>= k).run u := by
    intro outer kind last s t u c k hs hline hrun
    rw [hrun, hs.run_eq, run_bind, hline, ← run_bind, run_bind_assoc]
  induction h with
  | @material s u name hs hrun =>
    refine declared .material (fun _ => pure ()) hs ?_
    rw [run_bind_pure]
    unfold declaration
    rw [hs.2]
    exact run_bind_of_ok hrun
  | @shader s t u name hs h =>
    refine declared .shader (fun _ => pure ()) ⟨hs, h.keyword⟩ ?_
    rw [run_bind_pure, h.run_eq]
    rfl
  | @dialect s t u name k _ ht hopens ih =>
    exact within .shader .dialect (fun _ => finishDialect) ht hopens.run_eq ih
  | @stage s t u name entryPoint stage k _ ht hword hrun ih =>
    refine within .dialect .stage (fun _ => finishStage stage entryPoint) ht ?_ ih
    simp only [BlockKind.line, stageBlock, hword]
    exact run_bind_of_ok hrun
  | @vertexFormat s u name hs hrun =>
    refine declared .vertexFormat (fun _ => pure ()) hs ?_
    rw [run_bind_pure]
    unfold declaration
    rw [hs.2]
    exact run_bind_of_ok hrun
  | @component s t u name kind a k _ ht hword hrun ih =>
    refine within .vertexFormat (.component a)
      (fun a' => modify (Scene.changeVertexFormat (·.push a'))) ht ?_ ih
    simp only [BlockKind.line, attributeBlock, hword]
    exact run_bind_of_ok hrun
  | @texture s u name hs hrun =>
    refine declared .texture (fun _ => finishTexture name) hs ?_
    unfold declaration
    rw [hs.2]
    exact run_bind_of_ok hrun
  | @filter s t u name k _ ht hword hrun ih =>
    refine within .texture .filter (fun _ => pure ()) ht ?_ ih
    simp only [BlockKind.line, textureLine, hword]
    rw [run_bind_pure]
    exact run_bind_of_ok hrun
  | @textureLayer s u name hs hrun =>
    refine declared .textureLayer (fun _ => pure ()) hs ?_
    rw [run_bind_pure]
    unfold declaration
    rw [hs.2]
    exact run_bind_of_ok hrun

/-- An error of a line is the answer of the whole script. -/
theorem InBlock.fails (h : InBlock s₀ kind name u k) (hline : kind.Comes u c v) {e : ScriptError}
    (hfails : (kind.line c v.cursor.current).run v = (.error e, w)) :
    script.run s₀ = (.error e, w) := by
  rw [h.run_eq, hline.run_eq]
  exact run_bind_of_error hfails

end RunEq

end Load

end MaterialScript.Parser
