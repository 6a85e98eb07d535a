/-
The input layouts of shaders.

A shader keeps a copy of the vertex format its header names, made when the
header is read. The copy cannot get old: the lines of a vertex format change the
format declared last, whose block is open, and formats are only added
(`Resources.Settled`). Nor can it be hidden: no format has the name of another,
or one that starts like those of the builtin formats (`Resources.Unreserved`).
-/
import MaterialScript.Proofs.Growth
import MaterialScript.Proofs.Points
import MaterialScript.Proofs.Reachable
import MaterialScript.RenderSystem.Recorder

namespace MaterialScript

theorem Catalog.get?_push {α : Type} {c : Catalog α} {name : String} (h : name ∉ c.names)
    (value : α) : (c.push name value).get? name = some value := by
  rw [← c.contains_iff, contains, get?, Bool.not_eq_true, Option.isSome_eq_false_iff,
    Option.isNone_iff_eq_none] at h
  simp [push, get?, List.lookup_append, h]

namespace Resources

/-- No vertex format has a name that starts like those of the builtin formats. -/
def Unreserved (r : Resources) : Prop :=
  ∀ name ∈ r.vertexFormats.names, ¬ BuiltinFormat.reserved.toList <+: name.toList

/-- The vertex formats of `r` are the oldest of `r'`, and so are the shaders with their layouts. -/
structure Settled (r r' : Resources) : Prop where
  vertexFormats : r.vertexFormats.Extends r'.vertexFormats
  layouts : (r.shaders.map (·.inputLayout)).Extends (r'.shaders.map (·.inputLayout))

theorem Settled.refl (r : Resources) : r.Settled r := ⟨.refl _, .refl _⟩

theorem Settled.get?_shader {r r' : Resources} (h : r.Settled r') {name : String} {shader : Shader}
    (hshader : r.shaders.get? name = some shader) :
    ∃ shader', r'.shaders.get? name = some shader' ∧ shader'.inputLayout = shader.inputLayout := by
  have hlayout : (r.shaders.map (·.inputLayout)).get? name = some shader.inputLayout := by
    rw [Catalog.get?_map, hshader, Option.map_some]
  rw [← Option.map_eq_some_iff, ← Catalog.get?_map]
  exact h.layouts.get? hlayout

end Resources

namespace Recorder

/-- Compiling a stage leaves the layout of its shader as it is. -/
theorem compileStage_inputLayout (shader : Shader) (stage : ShaderStage) (r : Recorder) :
    (RenderSystem.compileStage shader stage r).2.1.inputLayout = shader.inputLayout := by
  simp only [RenderSystem.compileStage]
  split <;> rfl

theorem compileShader_inputLayout (shader : Shader) (r : Recorder) :
    (RenderSystem.compileShader shader r).2.1.inputLayout = shader.inputLayout := by
  simp only [RenderSystem.compileShader]
  split <;> rfl

end Recorder

/-! ## What holds at all points of a load -/

namespace Parser

/-- No vertex format comes to have a reserved name. -/
theorem unreserved_invariant {σ : Type} [RenderSystem σ] :
    Invariant fun _ (s : Scene σ) => s.Unreserved where
  line := by
    intro kind α f s hf h name hname
    have hsame : (f s).2.vertexFormats.names = s.vertexFormats.names :=
      lineChange_names hf s .vertexFormat
    exact h name (hsame ▸ hname)
  close h := h
  addMaterial _ h := h
  addShader _ h := h
  addVertexFormat := by
    intro name s hfree hnew h other hother
    have hnames : (s.addVertexFormat name).vertexFormats.names = s.vertexFormats.names ++ [name] :=
      Catalog.names_insert_of_not_mem hnew _
    rw [hnames, List.mem_append, List.mem_singleton] at hother
    rcases hother with hold | rfl
    · exact h other hold
    · exact hfree
  addTextureLayer _ h := h
  startTexture h := h
  addTexture := by
    intro name draft s h
    exact Scene.addTexture_keeps (P := fun t => t.Unreserved) (fun _ => h) fun _ _ => h

/-- What is settled stays so. In the block of a vertex format, the format is not one of those that
are. -/
theorem settled_invariant (r : Resources) :
    Invariant fun kind (s : Scene Recorder) => r.Settled s.toResources ∧
      (kind = some .vertexFormat → r.count .vertexFormat < s.count .vertexFormat) where
  line := by
    intro kind α f s hf h
    obtain ⟨h, hnew⟩ := h
    refine ⟨?_, fun hkind => ?_⟩
    · have compile : ∀ compiler : Shader → Recorder → Bool × Shader × Recorder,
          (∀ shader r, (compiler shader r).2.1.inputLayout = shader.inputLayout) →
          r.Settled (Scene.compileWith compiler s).2.toResources := by
        intro compiler hcompiler
        refine Scene.compileWith_keeps (P := fun t => r.Settled t.toResources) h
          fun name shader hcurrent _ => { h with layouts := ?_ }
        have hsame := Catalog.map_modifyCurrent (f := Shader.inputLayout) (c := s.shaders)
          (g := fun _ => (compiler shader s.system).2.1) fun _ _ heq => by
            rw [hcurrent] at heq
            cases heq
            exact hcompiler shader s.system
        exact hsame ▸ h.layouts
      cases hf
      case vertexFormat change =>
        exact { h with vertexFormats := h.vertexFormats.modifyCurrent (hnew rfl) change }
      case compileStage stage =>
        exact compile _ fun shader => Recorder.compileStage_inputLayout shader stage
      case compileShader => exact compile _ Recorder.compileShader_inputLayout
      all_goals exact ⟨h.vertexFormats, h.layouts⟩
    · rw [lineChange_count hf]
      exact hnew hkind
  close h := ⟨h.1, nofun⟩
  addMaterial _ h := ⟨⟨h.1.vertexFormats, h.1.layouts⟩, nofun⟩
  addShader := by
    intro name layout s _ h
    refine ⟨⟨h.1.vertexFormats, ?_⟩, nofun⟩
    have hinsert := Catalog.map_insert Shader.inputLayout s.shaders name
      (RenderSystem.makeShader layout s.system).1
    exact hinsert ▸ h.1.layouts.trans (Catalog.extends_insert _ _ _)
  addVertexFormat := by
    intro name s _ hnew h
    refine ⟨⟨h.1.vertexFormats.trans (Catalog.extends_insert _ _ _), h.1.layouts⟩, fun _ => ?_⟩
    have hsize := (Scene.addVertexFormat_adds hnew).count_lt
    have hless := h.1.vertexFormats.length_le
    exact Nat.lt_of_le_of_lt hless hsize
  addTextureLayer _ h := ⟨⟨h.1.vertexFormats, h.1.layouts⟩, nofun⟩
  startTexture h := ⟨⟨h.1.vertexFormats, h.1.layouts⟩, nofun⟩
  addTexture := by
    intro name draft s h
    have hsame : r.Settled s.toResources := h.1
    exact ⟨Scene.addTexture_keeps (P := fun t => r.Settled t.toResources) (fun _ => hsame)
      fun _ _ => ⟨hsame.vertexFormats, hsame.layouts⟩, nofun⟩

/-! ## Headers -/

section Headers

variable {s u : State (Scene Recorder)} (hends : Ends s.cursor.tokens)
include hends

/-- The layout of a shader is what its header names. -/
theorem inputLayout_named {layout : Option InputLayout} (h : inputLayout.run s = (.ok layout, u)) :
    ∃ ts, s.cursor.Passes ts u.cursor ∧
      layout = (leading? .name (visible s.cursor.lineBreaksCount ts)).bind
        (s.scene.layoutNamed? ·) := by
  obtain ⟨t, v, hnext, h⟩ := run_bind_eq_ok h
  obtain ⟨ts, hts, -, hseen⟩ := Reads.next hends rfl hnext
  have hscene := scene_eq_of_run next_composed hnext
  split at h
  · rename_i hkind
    cases h
    exact ⟨ts, hts, by simp [hseen, leading?, hkind]⟩
  · rename_i hkind
    obtain ⟨layout', w, hlayout, h⟩ := run_bind_eq_ok h
    cases hlayout
    obtain ⟨_, x, hnote, h⟩ := run_bind_eq_ok h
    obtain ⟨_, y, hexpect, h⟩ := run_bind_eq_ok h
    cases h
    have hstays : x.cursor = v.cursor := (Stays.noteIf _ _).cursor_eq hnote
    rw [← hstays] at hts
    obtain ⟨us, hus⟩ := (onward_of_run hexpect).leads
    refine ⟨ts ++ us, hts.trans hus, ?_⟩
    rw [visible_append, hseen, ← hscene]
    simp [leading?, hkind]
  · cases h

/-- What the rest of a shader's header does. -/
theorem shaderHeader_named {name : Token} (h : (shaderHeader name).run s = (.ok (), u)) :
    name.text ∉ s.scene.shaders.names ∧ ∃ ts, s.cursor.Passes ts u.cursor ∧
      u.scene = s.scene.addShader name.text
        ((leading? .name (visible s.cursor.lineBreaksCount ts)).bind (s.scene.layoutNamed? ·)) := by
  obtain ⟨_, v, hrefuse, h⟩ := run_bind_eq_ok h
  obtain ⟨layout, w, hlayout, h⟩ := run_bind_eq_ok h
  cases h
  obtain ⟨hscene, hnew⟩ := (refuseDuplicate_commits _ _).ok hrefuse
  have hcursor := (refuseDuplicate_stays .shader name).cursor_eq hrefuse
  rw [← hcursor] at hends
  obtain ⟨ts, hts, hnamed⟩ := inputLayout_named hends hlayout
  have hsame := scene_eq_of_run (inputLayout_composed fun _ _ => rfl) hlayout
  rw [hcursor] at hts hnamed
  refine ⟨hnew, ts, hts, ?_⟩
  rw [← hscene, ← hnamed, ← hsame]

end Headers

end Parser

/-! ## Layouts and formats -/

theorem Scene.layoutNamed?_isSome_iff {σ : Type} (s : Scene σ) (format : String) :
    (s.layoutNamed? format).isSome ↔
      (BuiltinFormat.ofName? format).isSome ∨ format ∈ s.vertexFormats.names := by
  rw [← s.vertexFormats.contains_iff, Catalog.contains, layoutNamed?]
  cases BuiltinFormat.ofName? format <;> simp

namespace Loader

/-- The layout a header names is the format of that name as long as formats are only added. -/
theorem vertexFormat?_of_layoutNamed? {s : Scene Recorder} {k : Loader Recorder}
    (h : s.vertexFormats.Extends k.resources.vertexFormats) {format : String} {layout : InputLayout}
    (hnamed : s.layoutNamed? format = some layout) :
    k.vertexFormat? format = some (Recorder.formatOf layout) := by
  unfold Scene.layoutNamed? at hnamed
  unfold vertexFormat?
  cases hbuiltin : BuiltinFormat.ofName? format with
  | some builtin =>
    rw [hbuiltin] at hnamed
    cases hnamed
    rfl
  | none =>
    rw [hbuiltin] at hnamed
    obtain ⟨declared, hdeclared, rfl⟩ := Option.map_eq_some_iff.1 hnamed
    exact h.get? hdeclared

/-- What a load has made of a loader once the body of a shader has started in `u`: at a point the
load comes by, or in the end. -/
inductive Since (l : Loader Recorder) (files : Files) (load : Load)
    (u : Parser.State (Scene Recorder)) : Loader Recorder → Prop
  | during {v : Parser.State (Scene Recorder)} : Parser.Since u v →
      Since l files load u (l.begin.absorb v)
  | after : Since l files load u (l.perform files load).2

theorem Since.settled {l k : Loader Recorder} {files : Files} {load : Load}
    {s₀ s t u : Parser.State (Scene Recorder)} {name : Token}
    (hstart : l.start? files load = some s₀) (hs : Parser.Hands none s₀ s)
    (hshader : Parser.DeclaresShader name s t u) (h : l.Since files load u k) :
    u.scene.Settled k.resources := by
  have settled : ∀ {v}, Parser.Since u v → u.scene.Settled v.scene.toResources := fun h =>
    ((Parser.settled_invariant u.scene.toResources).since h ⟨.refl _, nofun⟩).1
  cases h with
  | during h => exact settled h
  | after =>
    have houtcome := perform_outcome l files load
    rw [hstart] at houtcome
    generalize (l.perform files load).1.isOk = success at houtcome
    cases houtcome with
    | read hrun hresources _ =>
      have hend := hshader.since_script hs
      rw [hrun] at hend
      rw [hresources]
      exact settled hend

/-- **The input layouts of shaders are never stale or shadowed.**
- Whatever a host has done with a loader, no vertex format it holds has a name that starts like
  those of the builtin formats.
- A shader that a load declares stays, and so does its layout, at every later point of the load and
  after it, however it ends. If its header names a builtin format, or one declared before, the
  layout is what the loader knows by that name; if it names another or none, there is no layout. -/
theorem inputLayouts_settled :
    (∀ l : Loader Recorder, l.Reachable → ∀ name ∈ l.resources.vertexFormats.names,
      ¬ BuiltinFormat.reserved.toList <+: name.toList) ∧
    ∀ (l : Loader Recorder) (files : Files) (load : Load)
      (s₀ s t u : Parser.State (Scene Recorder)) (name : Token) (header : List Token),
      l.start? files load = some s₀ → Parser.Hands none s₀ s → Parser.DeclaresShader name s t u →
      t.cursor.Passes header u.cursor → ∀ k, l.Since files load u k →
      ∃ shader, k.resources.shaders.get? name.text = some shader ∧
        (∀ format, Parser.leading? .name (visible false header) = some format →
          (BuiltinFormat.ofName? format).isSome ∨ format ∈ t.scene.vertexFormats.names →
          ∃ layout, shader.inputLayout = some layout ∧ k.vertexFormat? format = some layout) ∧
        ((∀ format, Parser.leading? .name (visible false header) = some format →
          BuiltinFormat.ofName? format = none ∧ format ∉ t.scene.vertexFormats.names) →
          shader.inputLayout = none) := by
  constructor
  · intro l hl
    refine hl.invariant (I := Resources.Unreserved) nofun fun s hs => ?_
    refine Parser.unreserved_invariant.script.ends ?_
    rw [hs.resources]
    nofun
  · intro l files load s₀ s t u name header hstart hs hshader hheader k hk
    have hfresh := (fresh_of_start? hstart).1
    have ht : s₀.Onward t :=
      (Parser.HandsLine.onward hs).trans (Parser.onward_of_run hshader.declared)
    obtain ⟨hnew, ts, hts, hu⟩ := Parser.shaderHeader_named (ht.ends hfresh.ends) hshader.header
    obtain rfl := hheader.tokens_unique hts
    rw [ht.lineBreaks.trans hfresh.lineBreaks] at hu
    have hsettled := hk.settled hstart hs hshader
    have hformats : t.scene.vertexFormats.Extends k.resources.vertexFormats := by
      have hsame : u.scene.vertexFormats = t.scene.vertexFormats := by rw [hu]; rfl
      exact hsame ▸ hsettled.vertexFormats
    have hadded : u.scene.shaders.get? name.text = some (.ofLayout
        (((Parser.leading? .name (visible false header)).bind (t.scene.layoutNamed? ·)).map
          Recorder.formatOf)) := by
      rw [hu]
      exact (congrArg (Catalog.get? · name.text) (Catalog.insert_of_not_mem hnew _)).trans
        (Catalog.get?_push hnew _)
    obtain ⟨shader, hget, hlayout⟩ := hsettled.get?_shader hadded
    refine ⟨shader, hget, fun format hformat hknown => ?_, fun hunknown => ?_⟩
    · rw [← Scene.layoutNamed?_isSome_iff, Option.isSome_iff_exists] at hknown
      obtain ⟨layout, hnamed⟩ := hknown
      refine ⟨_, ?_, vertexFormat?_of_layoutNamed? hformats hnamed⟩
      rw [hlayout, hformat, Option.bind_some, hnamed]
      rfl
    · have hnone : (Parser.leading? .name (visible false header)).bind
          (t.scene.layoutNamed? ·) = none := by
        refine Option.bind_eq_none_iff.2 fun format hformat => ?_
        obtain ⟨hbuiltin, hdeclared⟩ := hunknown format hformat
        rw [← Option.not_isSome_iff_eq_none, Scene.layoutNamed?_isSome_iff, hbuiltin]
        simp [hdeclared]
      rw [hlayout, hnone]
      rfl

/-- A vertex format, a shader made for it, and a material with a line it does not know. -/
theorem inputLayouts_settled_failed_load :
    let name (text : String) : Token := ⟨.name, text, .start⟩
    let string (text : String) : Token := ⟨.string, text, .start⟩
    let symbol (s : Symbol) : Token := .bare (.symbol s) .start
    let header := [name "f", symbol .leftBrace]
    let tokens :=
      [name "vertexFormat", string "f", symbol .leftBrace, name "coord", symbol .leftBrace,
        symbol .rightBrace, symbol .rightBrace, name "shader", string "s"] ++ header ++
      [symbol .rightBrace, name "material", string "m", symbol .leftBrace, name "nope",
        symbol .rightBrace, .bare .endOfFile .start]
    let files : Files := fun _ => .error .notFound
    let l := Loader.new Recorder.default "/"
    let load : Load := .readTokens tokens
    let s₀ := l.begin.start files tokens
    let w := ((Parser.line Parser.declaration () (s₀.advance true).cursor.current).run
      (s₀.advance true)).2
    let s := w.advance true
    let t := (Parser.declaredName.run s).2
    let u := ((Parser.shaderHeader (string "s")).run t).2
    let k := (l.perform files load).2
    l.Reachable ∧ l.start? files load = some s₀ ∧ Parser.Hands none s₀ s ∧
      Parser.DeclaresShader (string "s") s t u ∧ t.cursor.Passes header u.cursor ∧
      l.Since files load u k ∧ (l.perform files load).1.isOk = false ∧
      ∃ shader layout, k.resources.shaders.get? "s" = some shader ∧
        shader.inputLayout = some layout ∧ k.vertexFormat? "f" = some layout := by
  intro name string symbol header tokens files l load s₀ w s t u k
  have hstart : l.start? files load = some s₀ := rfl
  have hs : Parser.Hands none s₀ s := by
    have hformat : ((Parser.line Parser.declaration () (s₀.advance true).cursor.current).run
        (s₀.advance true)).1 = .ok () := by decide +kernel
    have hline : Parser.HandsLine .endOfFile Parser.declaration () w () s :=
      .here (by decide +kernel) (by decide +kernel) (by decide +kernel)
    exact .later (by decide +kernel) (by decide +kernel) (Parser.run_of_answer hformat) hline
  have hshader : Parser.DeclaresShader (string "s") s t u := by
    have hname : (Parser.declaredName.run s).1 = .ok (string "s") := by decide +kernel
    have hheader : ((Parser.shaderHeader (string "s")).run t).1 = .ok () := by decide +kernel
    exact ⟨by decide +kernel, Parser.run_of_answer hname, by decide +kernel,
      Parser.run_of_answer hheader⟩
  have hpasses : t.cursor.Passes header u.cursor := ⟨by decide +kernel, by decide +kernel⟩
  have hknown : (BuiltinFormat.ofName? "f").isSome ∨ "f" ∈ t.scene.vertexFormats.names := by
    decide +kernel
  obtain ⟨shader, hget, hnamed, -⟩ := inputLayouts_settled.2 l files load s₀ s t u (string "s")
    header hstart hs hshader hpasses k .after
  obtain ⟨layout, hlayout⟩ := hnamed "f" rfl hknown
  exact ⟨.new _ _, hstart, hs, hshader, hpasses, .after, by decide +kernel, shader, layout, hget,
    hlayout⟩

end Loader

end MaterialScript
