/-
Scenes that differ in one resource.

`Catalog.Alike V`: two catalogs have the same names in the same order, and `V`
relates their values. `Scene.Apart kind name copies`: two scenes are the same but
for the value of the resource of this kind and name and, where that is a vertex
format, for the copies of it that shaders hold. Whatever a script does to both
scenes keeps this (`lineChange_apart`, `entryChange_apart`), with one exception: a
shader's header copies a format as it is at that time.
-/
import MaterialScript.Proofs.Growth
import MaterialScript.RenderSystem.Recorder

namespace MaterialScript

namespace Catalog

variable {α : Type} {V : String → α → α → Prop} {c d : Catalog α}

/-- The same names in the same order, with values that `V` relates. -/
def Alike (V : String → α → α → Prop) (c d : Catalog α) : Prop :=
  List.Forall₂ (fun e e' => e'.1 = e.1 ∧ V e.1 e.2 e'.2) c.entries d.entries

namespace Alike

theorem refl (hV : ∀ n a, V n a a) (c : Catalog α) : c.Alike V c :=
  List.forall₂_same.2 fun _ _ => ⟨rfl, hV _ _⟩

theorem mono {W : String → α → α → Prop} (h : c.Alike V d) (himp : ∀ n a a', V n a a' → W n a a') :
    c.Alike W d :=
  List.Forall₂.imp (fun _ _ he => ⟨he.1, himp _ _ _ he.2⟩) h

theorem names_eq (h : c.Alike V d) : d.names = c.names := by
  unfold Alike at h
  unfold names
  generalize c.entries = es, d.entries = es' at h ⊢
  induction h with
  | nil => rfl
  | cons he _ ih => exact congrArg₂ List.cons he.1 ih

theorem eq (h : c.Alike V d) (hV : ∀ n a a', V n a a' → a' = a) : d = c := by
  unfold Alike at h
  have hentries : d.entries = c.entries := by
    generalize c.entries = es, d.entries = es' at h ⊢
    induction h with
    | nil => rfl
    | cons he _ ih => exact congrArg₂ List.cons (Prod.ext he.1 (hV _ _ _ he.2)) ih
  exact congrArg Catalog.mk hentries

theorem contains_eq (h : c.Alike V d) (name : String) : d.contains name = c.contains name := by
  rw [Bool.eq_iff_iff, contains_iff, contains_iff, h.names_eq]

/-- `V` relates a name's values only where they are equal. -/
theorem get?_eq (h : c.Alike V d) {name : String} (hV : ∀ a a', V name a a' → a' = a) :
    d.get? name = c.get? name := by
  unfold Alike at h
  unfold get?
  generalize c.entries = es, d.entries = es' at h ⊢
  induction h with
  | nil => rfl
  | @cons e e' es es' he _ ih =>
    obtain ⟨n, a⟩ := e
    obtain ⟨n', a'⟩ := e'
    obtain ⟨hname, hvalue⟩ := he
    obtain rfl : n' = n := hname
    rw [List.lookup_cons, List.lookup_cons, ih]
    by_cases hn : name = n'
    · subst hn
      rw [show a' = a from hV _ _ hvalue]
    · rw [show (name == n') = false by simpa using hn]

theorem insert (h : c.Alike V d) {name : String} {a a' : α} (ha : V name a a') :
    (c.insert name a).Alike V (d.insert name a') := by
  unfold Catalog.insert insert?
  rw [h.contains_eq]
  split
  · exact h
  · exact List.rel_append h (.cons ⟨rfl, ha⟩ .nil)

/-- There are no entries, or the current ones have the same name. -/
theorem last (h : c.Alike V d) :
    c = .empty ∧ d = .empty ∨
      ∃ front front' name a a', c = Catalog.push ⟨front⟩ name a ∧
        d = Catalog.push ⟨front'⟩ name a' ∧ Alike V ⟨front⟩ ⟨front'⟩ ∧ V name a a' := by
  obtain ⟨entries⟩ := c
  obtain ⟨entries'⟩ := d
  have hentries : List.Forall₂ _ entries.reverse entries'.reverse := List.forall₂_reverse_iff.2 h
  rcases List.eq_nil_or_concat entries with rfl | ⟨front, ⟨name, a⟩, rfl⟩
  · obtain rfl : entries' = [] := List.forall₂_nil_left_iff.1 h
    exact .inl ⟨rfl, rfl⟩
  · rcases List.eq_nil_or_concat entries' with rfl | ⟨front', ⟨name', a'⟩, rfl⟩
    · simp at hentries
    · simp only [List.concat_eq_append, List.reverse_append, List.reverse_singleton,
        List.singleton_append, List.forall₂_cons, List.forall₂_reverse_iff] at hentries
      obtain ⟨⟨hname, hvalue⟩, hfront⟩ := hentries
      obtain rfl : name' = name := hname
      exact .inr ⟨front, front', name', a, a', by simp [push], by simp [push], hfront, hvalue⟩

/-- The current entries are changed alike, or `V` says nothing of them. -/
theorem modifyCurrent (h : c.Alike V d) {f f' : α → α}
    (hf : ∀ n, c.names.getLast? = some n → ∀ a a', V n a a' → V n (f a) (f' a')) :
    (c.modifyCurrent f).Alike V (d.modifyCurrent f') := by
  rcases h.last with ⟨rfl, rfl⟩ | ⟨front, front', name, a, a', rfl, rfl, hfront, ha⟩
  · exact .nil
  · rw [modifyCurrent_push, modifyCurrent_push]
    exact List.rel_append hfront (.cons ⟨rfl, hf name (by simp) a a' ha⟩ .nil)

end Alike

end Catalog

/-! ## Scenes -/

/-- The same value, unless it is that of the resource of this kind and name. -/
def ResourceKind.SameBut (kind : ResourceKind) (name : String) (k : ResourceKind) {α : Type}
    (n : String) (a a' : α) : Prop :=
  k = kind ∧ n = name ∨ a' = a

theorem ResourceKind.SameBut.map {kind k : ResourceKind} {name n : String} {α : Type} {a a' : α}
    (h : kind.SameBut name k n a a') (f : α → α) : kind.SameBut name k n (f a) (f a') :=
  h.imp_right (congrArg f)

/-- The resource declared last is changed in two ways. -/
theorem Catalog.Alike.current {kind : ResourceKind} {name : String} {α : Type} {c : Catalog α}
    (h : c.names.getLast? = some name) (f f' : α → α) :
    (c.modifyCurrent f).Alike (kind.SameBut name kind) (c.modifyCurrent f') :=
  (Alike.refl (V := kind.SameBut name kind) (fun _ _ => .inr rfl) c).modifyCurrent
    fun _ hn _ _ _ => .inl ⟨rfl, Option.some.inj (hn.symm.trans h)⟩

/-- The same shader, but one may hold the first of two copies where the other holds the second. -/
structure Shader.SameBut (copies : Option (VertexFormat × VertexFormat)) (a a' : Shader) :
    Prop where
  stages : a'.stages = a.stages
  compiled : a'.compiled = a.compiled
  inputLayout : a'.inputLayout = a.inputLayout ∨
    ∃ f f', copies = some (f, f') ∧ a.inputLayout = some f ∧ a'.inputLayout = some f'

theorem Shader.SameBut.refl (copies : Option (VertexFormat × VertexFormat)) (a : Shader) :
    a.SameBut copies a :=
  ⟨rfl, rfl, .inl rfl⟩

/-- The same shader where there are no copies. -/
theorem Shader.SameBut.of_none {a a' : Shader} (h : a.SameBut none a')
    (copies : Option (VertexFormat × VertexFormat)) : a.SameBut copies a' :=
  { h with inputLayout := h.inputLayout.imp_right fun ⟨_, _, hnone, _⟩ => nomatch hnone }

/-- The same names, and the same resources but for the one of this kind and name and for the copies
that shaders hold. -/
structure Resources.Apart (kind : ResourceKind) (name : String)
    (copies : Option (VertexFormat × VertexFormat)) (r r' : Resources) : Prop where
  materials : r.materials.Alike (kind.SameBut name .material) r'.materials
  shaders : r.shaders.Alike (fun _ => Shader.SameBut copies) r'.shaders
  vertexFormats : r.vertexFormats.Alike (kind.SameBut name .vertexFormat) r'.vertexFormats
  textures : r.textures.Alike (kind.SameBut name .texture) r'.textures
  textureLayers : r.textureLayers.Alike (kind.SameBut name .textureLayer) r'.textureLayers

/-- The same scene but for these resources. -/
structure Scene.Apart (kind : ResourceKind) (name : String)
    (copies : Option (VertexFormat × VertexFormat)) (s s' : Scene Recorder) : Prop
    extends Resources.Apart kind name copies s.toResources s'.toResources where
  system : s'.system = s.system
  drafts : s'.drafts = s.drafts
  files : s'.files = s.files
  requested : s'.requested = s.requested

namespace Resources.Apart

variable {kind : ResourceKind} {name : String} {copies : Option (VertexFormat × VertexFormat)}
  {r r' : Resources}

theorem refl (r : Resources) : r.Apart kind name copies r where
  materials := .refl (fun _ _ => .inr rfl) _
  shaders := .refl (fun _ => Shader.SameBut.refl _) _
  vertexFormats := .refl (fun _ _ => .inr rfl) _
  textures := .refl (fun _ _ => .inr rfl) _
  textureLayers := .refl (fun _ _ => .inr rfl) _

theorem of_none (h : r.Apart kind name none r') (copies : Option (VertexFormat × VertexFormat)) :
    r.Apart kind name copies r' :=
  { h with shaders := h.shaders.mono fun _ _ _ ha => ha.of_none copies }

theorem names_eq (h : r.Apart kind name copies r') (k : ResourceKind) : r'.names k = r.names k := by
  cases k with
  | material => exact h.materials.names_eq
  | shader => exact h.shaders.names_eq
  | vertexFormat => exact h.vertexFormats.names_eq
  | texture => exact h.textures.names_eq
  | textureLayer => exact h.textureLayers.names_eq

theorem declares_eq (h : r.Apart kind name copies r') (k : ResourceKind) (n : String) :
    r'.declares k n = r.declares k n := by
  rw [Bool.eq_iff_iff, Resources.declares_iff, Resources.declares_iff, h.names_eq]

end Resources.Apart

namespace Scene.Apart

variable {kind : ResourceKind} {name : String} {copies : Option (VertexFormat × VertexFormat)}
  {s s' : Scene Recorder}

theorem refl (s : Scene Recorder) : s.Apart kind name copies s :=
  { Resources.Apart.refl s.toResources with
    system := rfl, drafts := rfl, files := rfl, requested := rfl }

/-- A compiler that does not look at layouts. -/
theorem compileWith {compiler : Shader → Recorder → Bool × Shader × Recorder}
    (hcompiler : ∀ a a' r, a.SameBut copies a' →
      (compiler a' r).1 = (compiler a r).1 ∧
        (compiler a r).2.1.SameBut copies (compiler a' r).2.1 ∧
        (compiler a' r).2.2 = (compiler a r).2.2)
    (h : s.Apart kind name copies s') :
    (s.compileWith compiler).1 = (s'.compileWith compiler).1 ∧
      (s.compileWith compiler).2.Apart kind name copies (s'.compileWith compiler).2 := by
  rcases h.shaders.last with ⟨hs, hs'⟩ | ⟨front, front', n, a, a', hs, hs', -, ha⟩
  · have hnone : s.shaders.current? = none := by rw [hs]; rfl
    have hnone' : s'.shaders.current? = none := by rw [hs']; rfl
    simp only [Scene.compileWith, hnone, hnone']
    exact ⟨trivial, h⟩
  · have hcurrent : s.shaders.current? = some (n, a) := by simp [hs, Catalog.current?, Catalog.push]
    have hcurrent' : s'.shaders.current? = some (n, a') := by
      simp [hs', Catalog.current?, Catalog.push]
    obtain ⟨hanswer, hshader, hsystem⟩ := hcompiler a a' s.system ha
    simp only [Scene.compileWith, hcurrent, hcurrent', h.system]
    exact ⟨hanswer.symm, { h with
      shaders := h.shaders.modifyCurrent fun _ _ _ _ _ => hshader
      system := hsystem }⟩

end Scene.Apart

/-! ## Changes of both scenes -/

section Changes

variable {kind : ResourceKind} {name : String} {copies : Option (VertexFormat × VertexFormat)}
  {α : Type} {f : Scene Recorder → α × Scene Recorder}

theorem lineChange_apart {k : ResourceKind} (hf : LineChange k α f) :
    Parser.Respects (Scene.Apart kind name copies) α f := by
  intro s s' h
  cases hf
  case material change =>
    exact ⟨rfl, { h with materials := h.materials.modifyCurrent fun _ _ _ _ ha => ha.map change }⟩
  case vertexFormat change =>
    exact ⟨rfl, { h with
      vertexFormats := h.vertexFormats.modifyCurrent fun _ _ _ _ ha => ha.map change }⟩
  case textureLayer change =>
    exact ⟨rfl, { h with
      textureLayers := h.textureLayers.modifyCurrent fun _ _ _ _ ha => ha.map change }⟩
  case hasTexture n => exact ⟨(h.textures.contains_eq n).symm, h⟩
  case texture change =>
    exact ⟨rfl, { h with drafts := by simp only [Scene.changeTexture, h.drafts] }⟩
  case stage change =>
    exact ⟨rfl, { h with drafts := by simp only [Scene.changeStage, h.drafts] }⟩
  case hasVersion => exact ⟨by simp only [h.drafts], h⟩
  case takeStage =>
    exact ⟨by simp only [Scene.takeStage, h.drafts], { h with
      drafts := by simp only [Scene.takeStage, Scene.changeStage, h.drafts] }⟩
  case readFile path =>
    exact ⟨by simp only [Scene.readFile, h.files], { h with
      requested := by simp only [Scene.readFile, h.requested] }⟩
  case backend => exact ⟨by simp only [h.system], h⟩
  case compileStage stage =>
    refine h.compileWith fun a a' r ha => ?_
    simp only [RenderSystem.compileStage]
    split
    · exact ⟨rfl, ha, rfl⟩
    · exact ⟨rfl, { ha with stages := congrArg (· ++ [stage]) ha.stages }, rfl⟩
  case compileShader =>
    refine h.compileWith fun a a' r ha => ?_
    simp only [RenderSystem.compileShader, ha.stages]
    split
    · exact ⟨rfl, ⟨rfl, rfl, ha.inputLayout⟩, rfl⟩
    · exact ⟨rfl, ⟨rfl, rfl, ha.inputLayout⟩, rfl⟩
  case currentShaderName =>
    refine ⟨?_, h⟩
    rcases h.shaders.last with ⟨hs, hs'⟩ | ⟨front, front', n, a, a', hs, hs', -, -⟩
    · simp [Scene.currentShaderName, hs, hs']
    · simp [Scene.currentShaderName, hs, hs', Catalog.current?, Catalog.push]

theorem entryChange_apart (hf : EntryChange α f) :
    Parser.Respects (Scene.Apart kind name copies) α f := by
  intro s s' h
  cases hf
  case declares k n => exact ⟨(h.declares_eq k n).symm, h⟩
  case supportsShaders => exact ⟨by simp only [h.system], h⟩
  case addMaterial n =>
    refine ⟨rfl, ?_⟩
    simp only [Scene.addMaterial, RenderSystem.makeMaterial, h.system]
    exact { h with materials := h.materials.insert (.inr rfl), system := rfl }
  case addVertexFormat n =>
    refine ⟨rfl, ?_⟩
    simp only [Scene.addVertexFormat, RenderSystem.makeVertexFormat, h.system]
    exact { h with vertexFormats := h.vertexFormats.insert (.inr rfl), system := rfl }
  case addTextureLayer n k =>
    refine ⟨rfl, ?_⟩
    simp only [Scene.addTextureLayer, RenderSystem.makeTextureLayer, h.system]
    exact { h with textureLayers := h.textureLayers.insert (.inr rfl), system := rfl }
  case startTexture =>
    exact ⟨rfl, { h with drafts := by simp only [Scene.startTexture, h.drafts] }⟩
  case takeTexture =>
    exact ⟨by simp only [Scene.takeTexture, h.drafts], { h with
      drafts := by simp only [Scene.takeTexture, Scene.startTexture, h.drafts] }⟩
  case addTexture n draft =>
    rcases hmade : draft.make? s.system with ⟨_ | t, system⟩
    · simp only [Scene.addTexture, h.system, hmade]
      exact ⟨trivial, { h with system := rfl }⟩
    · simp only [Scene.addTexture, h.system, hmade]
      exact ⟨trivial, { h with textures := h.textures.insert (.inr rfl), system := rfl }⟩

/-- Where the difference is in no vertex format, shaders are made for the same formats. -/
theorem declarationChange_apart (hkind : kind ≠ .vertexFormat) (hf : DeclarationChange α f) :
    Parser.Respects (Scene.Apart kind name copies) α f := by
  cases hf
  case layoutNamed n =>
    intro s s' h
    have hformats : s'.vertexFormats = s.vertexFormats :=
      h.vertexFormats.eq fun _ _ _ ha => ha.resolve_left fun hsame => hkind hsame.1.symm
    exact ⟨by simp only [Scene.layoutNamed?, hformats], h⟩
  case addShader n layout =>
    intro s s' h
    refine ⟨rfl, ?_⟩
    simp only [Scene.addShader, RenderSystem.makeShader, h.system]
    exact { h with shaders := h.shaders.insert (.refl _ _), system := rfl }
  all_goals exact entryChange_apart (by constructor)

end Changes

/-! ## Copies of a vertex format -/

/-- Scenes that differ in one vertex format, which is `f` in one and `f'` in the other, and in its
copies. -/
structure Scene.CopiedApart (name : String) (f f' : VertexFormat) (s s' : Scene Recorder) :
    Prop where
  apart : s.Apart .vertexFormat name (some (f, f')) s'
  left : s.vertexFormats.get? name = some f
  right : s'.vertexFormats.get? name = some f'

section Copies

variable {name : String} {f f' : VertexFormat}

/-- The lines of a shader do not touch vertex formats. -/
theorem lineChange_copiedApart {α : Type} {g : Scene Recorder → α × Scene Recorder}
    (hg : LineChange .shader α g) : Parser.Respects (Scene.CopiedApart name f f') α g := by
  intro s s' h
  have compile : ∀ compiler (s : Scene Recorder),
      (s.compileWith compiler).2.vertexFormats = s.vertexFormats := fun _ s =>
    Scene.compileWith_keeps (P := fun t => t.vertexFormats = s.vertexFormats) rfl
      fun _ _ _ _ => rfl
  have same : ∀ s : Scene Recorder, (g s).2.vertexFormats = s.vertexFormats := by
    intro s
    cases hg
    case compileStage => exact compile _ s
    case compileShader => exact compile _ s
    all_goals rfl
  obtain ⟨hanswer, happart⟩ := lineChange_apart hg s s' h.apart
  exact ⟨hanswer, happart, (same s).symm ▸ h.left, (same s').symm ▸ h.right⟩

theorem entryChange_copiedApart {α : Type} {g : Scene Recorder → α × Scene Recorder}
    (hg : EntryChange α g) : Parser.Respects (Scene.CopiedApart name f f') α g := by
  intro s s' h
  obtain ⟨hanswer, happart⟩ := entryChange_apart hg s s' h.apart
  exact ⟨hanswer, happart, (declarationChange_extends hg.declaration s).vertexFormats.get? h.left,
    (declarationChange_extends hg.declaration s').vertexFormats.get? h.right⟩

namespace Scene.CopiedApart

variable {s s' : Scene Recorder}

/-- Both scenes know the same formats. -/
theorem knows_eq (h : s.CopiedApart name f f' s') (n : String) :
    (s'.layoutNamed? n).isSome = (s.layoutNamed? n).isSome := by
  have hcontains := h.apart.vertexFormats.contains_eq n
  unfold Scene.layoutNamed?
  split
  · rfl
  · simpa [Catalog.contains] using hcontains

/-- A shader is made for the same format in both scenes, or for the one they differ in. -/
theorem addShader (h : s.CopiedApart name f f' s') (n : String) (format : Option String) :
    (s.addShader n (format.bind s.layoutNamed?)).CopiedApart name f f'
      (s'.addShader n (format.bind s'.layoutNamed?)) := by
  have hshader : Shader.SameBut (some (f, f'))
      (.ofLayout ((format.bind s.layoutNamed?).map Recorder.formatOf))
      (.ofLayout ((format.bind s'.layoutNamed?).map Recorder.formatOf)) := by
    refine ⟨rfl, rfl, ?_⟩
    cases format with
    | none => exact .inl rfl
    | some m =>
      simp only [Option.bind_some, Scene.layoutNamed?, Shader.ofLayout]
      split
      · exact .inl rfl
      · by_cases hm : m = name
        · subst hm
          rw [h.left, h.right]
          exact .inr ⟨f, f', rfl, rfl, rfl⟩
        · rw [h.apart.vertexFormats.get?_eq fun _ _ ha => ha.resolve_left fun hsame => hm hsame.2]
          exact .inl rfl
  simp only [Scene.addShader, RenderSystem.makeShader, h.apart.system]
  exact ⟨{ h.apart with shaders := h.apart.shaders.insert hshader, system := rfl }, h.left, h.right⟩

end Scene.CopiedApart

end Copies

namespace Parser

variable {σ : Type}

/-- The name of the vertex format in a shader's header, up to and with the opening brace. -/
def formatName : Parser (Scene σ) (Option String) := do
  let t ← next
  if t.kind = .symbol .leftBrace then
    return none
  else if t.kind = .name then
    let known ← inspect fun s => (s.layoutNamed? t.text).isSome
    noteIf (!known) [.warning ("Unknown vertex format named \"" ++ t.text ++ "\"")]
    expect .leftBrace
    return some t.text
  else
    unexpected t

/-- The layout in a shader's header is that of the name. -/
theorem inputLayout_run (s : State (Scene σ)) :
    inputLayout.run s =
      (formatName >>= fun format => inspect fun s => format.bind s.layoutNamed?).run s := by
  rw [inputLayout, formatName, run_bind_assoc]
  rcases hnext : next.run s with ⟨e | t, u⟩
  · rw [run_bind_of_error hnext, run_bind_of_error hnext]
  rw [run_bind_of_ok hnext, run_bind_of_ok hnext]
  split
  · rename_i hkind
    rw [if_pos hkind]
    rfl
  · rename_i hkind
    rw [if_neg (by simp [hkind]), if_pos hkind, run_bind_assoc,
      run_bind_of_ok (show (inspect _).run u = _ from rfl),
      run_bind_of_ok (show (inspect _).run u = _ from rfl), run_bind_assoc, Option.not_isSome]
    rcases hnote : (noteIf (u.scene.layoutNamed? t.text).isNone
        [.warning ("Unknown vertex format named \"" ++ t.text ++ "\"")]).run u with ⟨e | _, v⟩
    · rw [run_bind_of_error hnote, run_bind_of_error hnote]
    rw [run_bind_of_ok hnote, run_bind_of_ok hnote, run_bind_assoc]
    rcases hexpect : (expect .leftBrace).run v with ⟨e | _, w⟩
    · rw [run_bind_of_error hexpect, run_bind_of_error hexpect]
    rw [run_bind_of_ok hexpect, run_bind_of_ok hexpect]
    -- the scene is still the one in which the format was looked up
    have hscene : w.scene = u.scene :=
      (scene_eq_of_run (expect_composed _) hexpect).trans
        (scene_eq_of_run (noteIf_composed _ _) hnote)
    change (Except.ok (u.scene.layoutNamed? t.text), w) = (.ok (w.scene.layoutNamed? t.text), w)
    rw [hscene]
  · rename_i hbrace hname
    rw [if_neg hbrace, if_neg hname]
    rfl

variable [RenderSystem σ]

/-- The header of a shader adds the shader made for the format that it names. -/
theorem shaderHeader_run (name : Token) (s : State (Scene σ)) :
    (shaderHeader name).run s = (do
      refuseDuplicate .shader name
      let format ← formatName
      modify fun s => s.addShader name.text (format.bind s.layoutNamed?)).run s := by
  rw [shaderHeader]
  rcases hnew : (refuseDuplicate .shader name).run s with ⟨e | _, u⟩
  · rw [run_bind_of_error hnew, run_bind_of_error hnew]
  rw [run_bind_of_ok hnew, run_bind_of_ok hnew, run_bind, inputLayout_run]
  rcases hformat : formatName.run u with ⟨e | format, v⟩
  · rw [run_bind_of_error hformat, run_bind_of_error hformat]
  · rw [run_bind_of_ok hformat, run_bind_of_ok hformat]
    rfl

end Parser

end MaterialScript
