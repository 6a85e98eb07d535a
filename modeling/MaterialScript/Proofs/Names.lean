/-
What a declaration does to the names of the catalogs.

Lines change no name (`lineChange_names`). A declaration that succeeds adds
the name in its header to the catalog of its kind, where the name was not, and
leaves the other catalogs as they are (`declaration_names`). Whatever a script
does, no catalog holds a name twice (`sceneChange_nodup`).
-/
import MaterialScript.Proofs.Blocks
import MaterialScript.Proofs.SceneChange

namespace MaterialScript

namespace Catalog

variable {α β : Type}

/-- One more entry after those of a catalog. -/
def push (c : Catalog α) (name : String) (value : α) : Catalog α := ⟨c.entries ++ [(name, value)]⟩

@[simp] theorem names_push (c : Catalog α) (name : String) (value : α) :
    (c.push name value).names = c.names ++ [name] := by
  simp [push, names]

@[simp] theorem size_push (c : Catalog α) (name : String) (value : α) :
    (c.push name value).size = c.size + 1 := by
  simp [push, size]

@[simp] theorem modifyCurrent_push (c : Catalog α) (name : String) (value : α) (f : α → α) :
    (c.push name value).modifyCurrent f = c.push name (f value) :=
  congrArg Catalog.mk (changeLast_append f c.entries name value)

theorem insert_of_not_mem {c : Catalog α} {name : String} (h : name ∉ c.names) (value : α) :
    c.insert name value = c.push name value := by
  rw [← c.contains_iff, Bool.not_eq_true] at h
  simp [insert, insert?, h, push]

theorem names_insert_of_not_mem {c : Catalog α} {name : String} (h : name ∉ c.names) (value : α) :
    (c.insert name value).names = c.names ++ [name] := by
  rw [insert_of_not_mem h, names_push]

theorem insert_of_mem {c : Catalog α} {name : String} (h : name ∈ c.names) (value : α) :
    c.insert name value = c := by
  rw [← c.contains_iff] at h
  simp [insert, insert?, h]

/-- An entry is added under a name that is not taken, or nothing happens. -/
theorem names_insert (c : Catalog α) (name : String) (value : α) :
    (c.insert name value).names = c.names ∨
      name ∉ c.names ∧ (c.insert name value).names = c.names ++ [name] := by
  by_cases h : name ∈ c.names
  · exact .inl (by rw [insert_of_mem h])
  · exact .inr ⟨h, names_insert_of_not_mem h value⟩

/-- `P` holds of every entry's value. -/
def All (P : α → Prop) (c : Catalog α) : Prop := ∀ e ∈ c.entries, P e.2

theorem all_empty (P : α → Prop) : All P (.empty : Catalog α) := List.forall_mem_nil _

namespace All

variable {P Q : α → Prop} {c : Catalog α}

theorem mono (h : c.All P) (himp : ∀ a, P a → Q a) : c.All Q := fun e he => himp _ (h e he)

theorem insert (h : c.All P) (name : String) {value : α} (hvalue : P value) :
    (c.insert name value).All P := by
  unfold Catalog.insert insert?
  split
  · exact h
  · intro e he
    rcases List.mem_append.1 he with he | he
    · exact h e he
    · rw [List.mem_singleton.1 he]
      exact hvalue

theorem modifyCurrent (h : c.All P) {f : α → α} (hf : ∀ a, P a → P (f a)) :
    (c.modifyCurrent f).All P := by
  obtain ⟨entries⟩ := c
  unfold All Catalog.modifyCurrent at *
  fun_induction changeLast f entries with
  | case1 => exact h
  | case2 name value => simpa using hf value (by simpa using h)
  | case3 e e' rest ih =>
    simp only [List.forall_mem_cons] at h ih ⊢
    exact ⟨h.1, ih h.2⟩

end All

/-- The same names with other entries. -/
def map (f : α → β) (c : Catalog α) : Catalog β :=
  ⟨c.entries.map fun (name, value) => (name, f value)⟩

theorem get?_map (f : α → β) (c : Catalog α) (name : String) :
    (c.map f).get? name = (c.get? name).map f :=
  Vocabulary.lookup_map f name c.entries

theorem contains_map (f : α → β) (c : Catalog α) (name : String) :
    (c.map f).contains name = c.contains name := by
  rw [contains, contains, get?_map, Option.isSome_map]

theorem map_insert (f : α → β) (c : Catalog α) (name : String) (value : α) :
    (c.insert name value).map f = (c.map f).insert name (f value) := by
  rw [insert, insert, insert?, insert?, contains_map]
  split
  · rfl
  · simp [map]

/-- A change of the current entry that `f` does not see. -/
theorem map_modifyCurrent {f : α → β} {c : Catalog α} {g : α → α}
    (h : ∀ name value, c.current? = some (name, value) → f (g value) = f value) :
    (c.modifyCurrent g).map f = c.map f := by
  obtain ⟨entries⟩ := c
  rcases List.eq_nil_or_concat entries with rfl | ⟨front, ⟨name, value⟩, rfl⟩
  · rfl
  · have hsame : f (g value) = f value := h name value (by simp [current?])
    rw [modifyCurrent, List.concat_eq_append, changeLast_append]
    simp [map, hsame]

end Catalog

namespace Resources

/-- The names of the resources of a kind, oldest first. -/
def names (r : Resources) : ResourceKind → List String
  | .material => r.materials.names
  | .shader => r.shaders.names
  | .vertexFormat => r.vertexFormats.names
  | .texture => r.textures.names
  | .textureLayer => r.textureLayers.names

theorem declares_iff (r : Resources) (kind : ResourceKind) (name : String) :
    r.declares kind name ↔ name ∈ r.names kind := by
  cases kind <;> exact Catalog.contains_iff _ _

/-- `r'` has the names of `r` and one more of this kind. -/
def Adds (r r' : Resources) (kind : ResourceKind) (name : String) : Prop :=
  ∀ k, r'.names k = r.names k ++ if k = kind then [name] else []

theorem Adds.congr {r r' r'' : Resources} {kind : ResourceKind} {name : String}
    (h : r.Adds r' kind name) (hsame : ∀ k, r''.names k = r'.names k) : r.Adds r'' kind name :=
  fun k => (hsame k).trans (h k)

end Resources

section Changes

variable {σ : Type} [RenderSystem σ]

theorem lineChange_names {kind : ResourceKind} {α : Type} {f : Scene σ → α × Scene σ}
    (hf : LineChange kind α f) (s : Scene σ) (k : ResourceKind) :
    (f s).2.names k = s.names k := by
  have compile : ∀ compiler, ((Scene.compileWith compiler s).2).names k = s.names k := by
    intro compiler
    refine Scene.compileWith_keeps (P := fun t => t.names k = s.names k) rfl fun _ _ _ _ => ?_
    cases k
    case shader => exact Catalog.names_modifyCurrent _ _
    all_goals rfl
  cases hf
  case material => cases k <;> first | rfl | exact Catalog.names_modifyCurrent _ _
  case vertexFormat => cases k <;> first | rfl | exact Catalog.names_modifyCurrent _ _
  case textureLayer => cases k <;> first | rfl | exact Catalog.names_modifyCurrent _ _
  case compileStage => exact compile _
  case compileShader => exact compile _
  all_goals rfl

theorem declarationChange_names {α : Type} {f : Scene σ → α × Scene σ}
    (hf : DeclarationChange α f) (s : Scene σ) (k : ResourceKind) :
    (f s).2.names k = s.names k ∨
      ∃ name, name ∉ s.names k ∧ (f s).2.names k = s.names k ++ [name] := by
  have add : ∀ {β : Type} {c : Catalog β} {name : String} {value : β},
      (c.insert name value).names = c.names ∨
        ∃ n, n ∉ c.names ∧ (c.insert name value).names = c.names ++ [n] := by
    intro β c name value
    rcases c.names_insert name value with h | h
    · exact .inl h
    · exact .inr ⟨name, h⟩
  cases hf
  case addTexture name draft =>
    refine Scene.addTexture_keeps (P := fun t => t.names k = s.names k ∨
      ∃ n, n ∉ s.names k ∧ t.names k = s.names k ++ [n]) (fun _ => .inl rfl) fun _ _ => ?_
    cases k <;> first | exact .inl rfl | exact add
  case addMaterial => cases k <;> first | exact .inl rfl | exact add
  case addShader => cases k <;> first | exact .inl rfl | exact add
  case addVertexFormat => cases k <;> first | exact .inl rfl | exact add
  case addTextureLayer => cases k <;> first | exact .inl rfl | exact add
  all_goals exact .inl rfl

theorem sceneChange_names {α : Type} {f : Scene σ → α × Scene σ} (hf : SceneChange α f)
    (s : Scene σ) (k : ResourceKind) :
    (f s).2.names k = s.names k ∨
      ∃ name, name ∉ s.names k ∧ (f s).2.names k = s.names k ++ [name] := by
  cases hf with
  | line hline => exact .inl (lineChange_names hline s k)
  | declaration hdeclaration => exact declarationChange_names hdeclaration s k

theorem sceneChange_nodup {α : Type} {f : Scene σ → α × Scene σ} (hf : SceneChange α f)
    (s : Scene σ) (h : ∀ k, (s.names k).Nodup) (k : ResourceKind) : ((f s).2.names k).Nodup := by
  rcases sceneChange_names hf s k with hsame | ⟨name, hname, hadd⟩
  · rw [hsame]
    exact h k
  · rw [hadd, List.nodup_append]
    refine ⟨h k, by simp, fun a ha b hb => ?_⟩
    rw [List.mem_singleton.1 hb]
    exact fun heq => hname (heq ▸ ha)

/-! ## Declarations -/

namespace Scene

variable {s : Scene σ} {name : String}

theorem addMaterial_adds (h : name ∉ s.names .material) :
    s.Adds (s.addMaterial name).toResources .material name := by
  intro k
  cases k
  case material => exact Catalog.names_insert_of_not_mem h _
  all_goals exact (List.append_nil _).symm

theorem addShader_adds (h : name ∉ s.names .shader) (layout : Option InputLayout) :
    s.Adds (s.addShader name layout).toResources .shader name := by
  intro k
  cases k
  case shader => exact Catalog.names_insert_of_not_mem h _
  all_goals exact (List.append_nil _).symm

theorem addVertexFormat_adds (h : name ∉ s.names .vertexFormat) :
    s.Adds (s.addVertexFormat name).toResources .vertexFormat name := by
  intro k
  cases k
  case vertexFormat => exact Catalog.names_insert_of_not_mem h _
  all_goals exact (List.append_nil _).symm

theorem addTextureLayer_adds (h : name ∉ s.names .textureLayer) (kind : LayerKind) :
    s.Adds (s.addTextureLayer name kind).toResources .textureLayer name := by
  intro k
  cases k
  case textureLayer => exact Catalog.names_insert_of_not_mem h _
  all_goals exact (List.append_nil _).symm

theorem addTexture_adds (h : name ∉ s.names .texture) {draft : TextureDraft}
    (hmade : (s.addTexture name draft).1) :
    s.Adds (s.addTexture name draft).2.toResources .texture name := by
  unfold addTexture at hmade ⊢
  split at hmade
  · intro k
    cases k
    case texture => exact Catalog.names_insert_of_not_mem h _
    all_goals exact (List.append_nil _).symm
  · cases hmade

end Scene

end Changes

namespace Parser

variable {σ : Type} {s u : State (Scene σ)}

/-! ## Headers -/

/-- When `p` succeeds with `a`, it leads from a scene `r` to a scene `r'` as `A r a r'` says; when
it fails, the scene is as it was. -/
structure Commits {ρ α : Type} (p : Parser ρ α) (A : ρ → α → ρ → Prop) : Prop where
  ok : ∀ {s u : State ρ} {a : α}, p.run s = (.ok a, u) → A s.scene a u.scene
  failed : ∀ {s u : State ρ} {e : ScriptError}, p.run s = (.error e, u) → u.scene = s.scene

namespace Commits

variable {ρ α β : Type} {p : Parser ρ α} {f : α → Parser ρ β} {A : ρ → α → Prop}
  {B : ρ → β → ρ → Prop}

theorem of_looksOnly (h : Composed LooksOnly True p) : Commits p fun r _ r' => r' = r := by
  have same : ∀ {s u : State ρ} {answer : Except ScriptError α}, p.run s = (answer, u) →
      u.scene = s.scene := by
    intro s u answer hrun
    have hscene := h.scene_eq s
    rwa [hrun] at hscene
  exact ⟨same, same⟩

theorem mono {A' B' : ρ → α → ρ → Prop} (h : Commits p A')
    (himp : ∀ r a r', A' r a r' → B' r a r') : Commits p B' :=
  ⟨fun hrun => himp _ _ _ (h.ok hrun), h.failed⟩

/-- After a part that leaves the scene as it is, with what that part has found out. -/
theorem bind (hp : Commits p fun r a r' => r' = r ∧ A r a)
    (hf : ∀ a, Commits (f a) fun r b r' => A r a → B r b r') : Commits (p >>= f) B where
  ok := by
    intro s u b h
    obtain ⟨a, t, hrun, h⟩ := run_bind_eq_ok h
    obtain ⟨hscene, hA⟩ := hp.ok hrun
    have hB := (hf a).ok h
    rw [hscene] at hB
    exact hB hA
  failed := by
    intro s u e h
    rw [run_bind] at h
    rcases hrun : p.run s with ⟨e' | a, t⟩ <;> rw [hrun] at h
    · cases h
      exact hp.failed hrun
    · exact ((hf a).failed h).trans (hp.ok hrun).1

theorem bind_looks (hp : Composed LooksOnly True p) (hf : ∀ a, Commits (f a) B) :
    Commits (p >>= f) B :=
  bind (A := fun _ _ => True) ((of_looksOnly hp).mono fun _ _ _ h => ⟨h, trivial⟩) fun a =>
    (hf a).mono fun _ _ _ h _ => h

theorem build {f : ρ → α × ρ} {A : ρ → α → ρ → Prop} (h : ∀ r, A r (f r).1 (f r).2) :
    Commits (build f) A where
  ok := by
    intro s u a hrun
    cases hrun
    exact h _
  failed := by
    intro s u e hrun
    cases hrun

/-- An answer that has no part in the change. -/
theorem bind_pure {p : Parser ρ Unit} {a : α} {A : ρ → α → ρ → Prop}
    (hp : Commits p fun r _ r' => A r a r') : Commits (do p; return a) A where
  ok := by
    intro s u b h
    obtain ⟨_, t, hrun, h⟩ := run_bind_eq_ok h
    cases h
    exact hp.ok hrun
  failed := by
    intro s u e h
    rw [run_bind] at h
    rcases hrun : p.run s with ⟨e' | _, t⟩ <;> rw [hrun] at h <;> cases h
    exact hp.failed hrun

theorem failIf (b : Bool) (t : Token) (fault : Fault) :
    Commits (failIf b t fault : Parser ρ Unit) fun r _ r' => r' = r ∧ b = false := by
  refine ⟨fun hrun => ?_, (of_looksOnly (failIf_composed b t fault)).failed⟩
  unfold Parser.failIf at hrun
  cases b <;> cases hrun
  exact ⟨rfl, rfl⟩

end Commits

theorem scene_eq_of_run {α : Type} {p : Parser (Scene σ) α} {a : α}
    (hp : Composed LooksOnly True p) (h : p.run s = (.ok a, u)) : u.scene = s.scene :=
  (Commits.of_looksOnly hp).ok h

theorem refuseDuplicate_commits (kind : ResourceKind) (name : Token) :
    Commits (refuseDuplicate (σ := σ) kind name) fun r _ r' =>
      r' = r ∧ name.text ∉ r.names kind := by
  refine .bind (A := fun r b => b = r.declares kind name.text) (.build fun r => ⟨rfl, rfl⟩)
    fun b => (Commits.failIf _ _ _).mono ?_
  rintro r _ _ ⟨hscene, hnew⟩ hb
  refine ⟨hscene, fun hmem => ?_⟩
  rw [← Resources.declares_iff, ← hb, hnew] at hmem
  cases hmem

theorem newName_commits (kind : ResourceKind) :
    Commits (newName (σ := σ) kind) fun r name r' => r' = r ∧ name ∉ r.names kind :=
  .bind_looks declaredName_composed fun t => .bind_pure (refuseDuplicate_commits kind t)

variable [RenderSystem σ] {name : String}

theorem materialHeader_commits :
    Commits (materialHeader (σ := σ)) fun r name r' =>
      name ∉ r.names .material ∧ r' = r.addMaterial name :=
  .bind (newName_commits _) fun _ => .bind_looks (expect_composed _) fun _ =>
    .bind_pure (.build fun _ hnew => ⟨hnew, rfl⟩)

theorem vertexFormatHeader_commits :
    Commits (vertexFormatHeader (σ := σ)) fun r name r' =>
      ¬ BuiltinFormat.reserved.toList <+: name.toList ∧ name ∉ r.names .vertexFormat ∧
        r' = r.addVertexFormat name := by
  refine .bind_looks declaredName_composed fun t => .bind (Commits.failIf _ t _) fun _ =>
    .bind (refuseDuplicate_commits _ t) fun _ => .bind_looks (expect_composed _) fun _ =>
    .bind_pure (.build fun _ hnew hfree => ⟨?_, hnew, rfl⟩)
  rw [← List.isPrefixOf_iff_prefix, hfree]
  exact Bool.false_ne_true

theorem textureLayerHeader_commits :
    Commits (textureLayerHeader (σ := σ)) fun r name r' =>
      name ∉ r.names .textureLayer ∧ ∃ kind, r' = r.addTextureLayer name kind :=
  .bind (newName_commits _) fun _ => .bind_looks layerKind_composed fun kind =>
    .bind_looks (expect_composed _) fun _ => .bind_pure (.build fun _ hnew => ⟨hnew, kind, rfl⟩)

theorem shaderHeader_commits (name : Token) :
    Commits (shaderHeader (σ := σ) name) fun r _ r' =>
      name.text ∉ r.names .shader ∧ ∃ layout, r' = r.addShader name.text layout :=
  .bind (refuseDuplicate_commits _ name) fun _ =>
    .bind_looks (inputLayout_composed fun _ _ => rfl) fun layout =>
    .build fun _ hnew => ⟨hnew, layout, rfl⟩

omit [RenderSystem σ] in
theorem textureHeader_commits :
    Commits (textureHeader (σ := σ)) fun r name r' =>
      name ∉ r.names .texture ∧ r' = r.startTexture :=
  .bind (newName_commits _) fun _ => .bind_looks (expect_composed _) fun _ =>
    .bind_pure (.build fun _ hnew => ⟨hnew, rfl⟩)

theorem materialHeader_names (h : materialHeader.run s = (.ok name, u)) :
    s.scene.Adds u.scene.toResources .material name := by
  obtain ⟨hnew, hscene⟩ := materialHeader_commits.ok h
  rw [hscene]
  exact Scene.addMaterial_adds hnew

theorem vertexFormatHeader_names (h : vertexFormatHeader.run s = (.ok name, u)) :
    s.scene.Adds u.scene.toResources .vertexFormat name := by
  obtain ⟨-, hnew, hscene⟩ := vertexFormatHeader_commits.ok h
  rw [hscene]
  exact Scene.addVertexFormat_adds hnew

theorem textureLayerHeader_names (h : textureLayerHeader.run s = (.ok name, u)) :
    s.scene.Adds u.scene.toResources .textureLayer name := by
  obtain ⟨hnew, kind, hscene⟩ := textureLayerHeader_commits.ok h
  rw [hscene]
  exact Scene.addTextureLayer_adds hnew kind

theorem shaderHeader_names {name : Token} (h : (shaderHeader name).run s = (.ok (), u)) :
    s.scene.Adds u.scene.toResources .shader name.text := by
  obtain ⟨hnew, layout, hscene⟩ := (shaderHeader_commits name).ok h
  rw [hscene]
  exact Scene.addShader_adds hnew layout

/-- The end of a texture's block makes the texture and adds it; it fails if that does. -/
theorem finishTexture_run (name : String) (s : State (Scene σ)) :
    (finishTexture name).run s =
      let draft := s.scene.drafts.texture
      let made := s.scene.startTexture.addTexture name draft
      (if made.1 then .ok ()
        else .error (.placed s.cursor.current.position (.textureLoad draft.settings.fileName)),
        { s with scene := made.2 }) := by
  simp only [finishTexture, run_bind, Parser.current, build, Scene.takeTexture, failIf]
  cases (s.scene.startTexture.addTexture name s.scene.drafts.texture).1 <;> rfl

theorem finishTexture_names (h : (finishTexture name).run s = (.ok (), u))
    (hnew : name ∉ s.scene.names .texture) : s.scene.Adds u.scene.toResources .texture name := by
  rw [finishTexture_run] at h
  obtain ⟨hanswer, rfl⟩ := Prod.mk.inj h
  refine Scene.addTexture_adds (s := s.scene.startTexture) hnew ?_
  by_contra hnot
  rw [if_neg hnot] at hanswer
  cases hanswer

/-! ## Whole declarations -/

/-- Lines change no name. -/
theorem names_eq_of_lines {kind : ResourceKind} {α : Type} {p : Parser (Scene σ) α} {a : α}
    (hp : Composed (LineChange kind) True p) (h : p.run s = (.ok a, u)) (k : ResourceKind) :
    u.scene.names k = s.scene.names k :=
  hp.keeps_of_run (fun r => r.names k = s.scene.names k)
    (fun _ _ r hf hr => (lineChange_names hf r k).trans hr) h rfl

/-- The tokens of a declaration after its keyword. -/
def Declaration (kind : ResourceKind) (name : String) (ts : List Token) : Prop :=
  ∃ header body, ts = header ++ body ∧ Braces.Named kind name header ∧
    Braces.Closing Braces.Sinks body

omit [RenderSystem σ] in
theorem declaration_of_header {p : Parser (Scene σ) String} {f : String → Parser (Scene σ) Unit}
    {kind : ResourceKind} {m : Bool} (hp : Reads m p fun name vs => Braces.Named kind name vs)
    (hf : ∀ name, Reads m (f name) fun _ vs => Braces.Closing Braces.Balanced vs)
    (hends : Ends s.cursor.tokens) (hbreaks : s.cursor.lineBreaksCount = m)
    (h : (p >>= f).run s = (.ok (), u)) :
    ∃ name v, p.run s = (.ok name, v) ∧ (f name).run v = (.ok (), u) ∧
      ∃ ts, s.cursor.Passes ts u.cursor ∧ Declaration kind name (visible m ts) := by
  obtain ⟨name, v, hheader, hbody⟩ := run_bind_eq_ok h
  obtain ⟨ts, hts, hnamed⟩ := hp hends hbreaks hheader
  have hv := onward_of_run hheader
  obtain ⟨us, hus, hclosing⟩ := hf name (hts.ends hends) (hv.lineBreaks.trans hbreaks) hbody
  refine ⟨name, v, hheader, hbody, ts ++ us, hts.trans hus, visible m ts, visible m us, ?_, hnamed,
    ?_⟩
  · rw [visible_append]
  · exact hclosing.mono fun _ h => h.sinks

section Declarations

variable (hends : Ends s.cursor.tokens)
include hends

theorem shader_names (hsupported : RenderSystem.supportsShaders s.scene.system)
    (h : shader.run s = (.ok (), u)) :
    ∃ name, s.scene.Adds u.scene.toResources .shader name ∧
      ∃ ts, s.cursor.Passes ts u.cursor ∧
        Declaration .shader name (visible s.cursor.lineBreaksCount ts) := by
  obtain ⟨n, v, hname, h⟩ := run_bind_eq_ok h
  obtain ⟨supported, _, hsupports, h⟩ := run_bind_eq_ok h
  cases hsupports
  have hv := scene_eq_of_run declaredName_composed hname
  rw [← hv] at hsupported
  split at h
  · rename_i hnot
    have hnot : (!RenderSystem.supportsShaders v.scene.system) = true := hnot
    rw [hsupported] at hnot
    cases hnot
  · obtain ⟨_, w, hheader, hbody⟩ := run_bind_eq_ok h
    obtain ⟨ts, hts, hkind, hseen⟩ := declaredName_reads hends rfl hname
    obtain ⟨us, hus, hnamed⟩ := shaderHeader_reads n (hts.ends hends) rfl hheader
    obtain ⟨vs, hvs, hclosing⟩ := blockBody_reads Braces.stacks_sinks dialectBlock_reads ()
      ((hts.trans hus).ends hends) rfl hbody
    have hbreaks := (onward_of_run hname).lineBreaks
    have hbreaks' := (onward_of_run hheader).lineBreaks
    have hadds := shaderHeader_names hheader
    rw [hv] at hadds
    refine ⟨n.text,
      hadds.congr (names_eq_of_lines (lines_composed dialectBlock_composed _ ()) hbody),
      ts ++ us ++ vs, (hts.trans hus).trans hvs, n :: visible v.cursor.lineBreaksCount us, _, ?_,
      hnamed hkind, hclosing⟩
    rw [visible_append, visible_append, hseen, hbreaks', hbreaks]
    rfl

theorem texture_names (h : texture.run s = (.ok (), u)) :
    ∃ name, s.scene.Adds u.scene.toResources .texture name ∧
      ∃ ts, s.cursor.Passes ts u.cursor ∧
        Declaration .texture name (visible s.cursor.lineBreaksCount ts) := by
  obtain ⟨name, v, hheader, hbody, htokens⟩ := declaration_of_header textureHeader_reads
    (fun name => .bind (blockBody_reads Braces.stacks_balanced textureLine_reads ()) fun _ =>
      .stays (finishTexture_stays name) fun _ us hus => by rw [List.append_nil]; exact hus)
    hends rfl h
  obtain ⟨_, w, hlines, hfinish⟩ := run_bind_eq_ok hbody
  obtain ⟨hnew, hstart⟩ := textureHeader_commits.ok hheader
  have hsame : ∀ k, w.scene.names k = s.scene.names k := fun k => by
    rw [names_eq_of_lines (lines_composed textureLine_composed _ ()) hlines k, hstart]
    rfl
  rw [← hsame] at hnew
  refine ⟨name, fun k => ?_, htokens⟩
  rw [finishTexture_names hfinish hnew k, hsame]

/-- A declaration that succeeds adds the name in its header to the catalog of its keyword. -/
theorem declaration_names {b : Unit} {t : Token}
    (hsupported : RenderSystem.supportsShaders s.scene.system)
    (h : (declaration b t).run s = (.ok (), u)) :
    ∃ kind name, t.text = ResourceKind.keyword kind ∧
      s.scene.Adds u.scene.toResources kind name ∧
      ∃ ts, s.cursor.Passes ts u.cursor ∧
        Declaration kind name (visible s.cursor.lineBreaksCount ts) := by
  unfold declaration at h
  split at h
  · rename_i hkeyword
    obtain ⟨name, v, hheader, hbody, htokens⟩ := declaration_of_header materialHeader_reads
      (fun _ => blockBody_reads Braces.stacks_balanced materialLine_reads ()) hends rfl h
    refine ⟨.material, name, hkeyword, (materialHeader_names hheader).congr ?_, htokens⟩
    exact names_eq_of_lines (lines_composed materialLine_composed _ ()) hbody
  · rename_i hkeyword
    obtain ⟨name, hadds, htokens⟩ := shader_names hends hsupported h
    exact ⟨.shader, name, hkeyword, hadds, htokens⟩
  · rename_i hkeyword
    obtain ⟨name, v, hheader, hbody, htokens⟩ := declaration_of_header vertexFormatHeader_reads
      (fun _ => blockBody_reads Braces.stacks_balanced attributeBlock_reads ()) hends rfl h
    refine ⟨.vertexFormat, name, hkeyword, (vertexFormatHeader_names hheader).congr ?_, htokens⟩
    exact names_eq_of_lines (lines_composed attributeBlock_composed _ ()) hbody
  · rename_i hkeyword
    obtain ⟨name, hadds, htokens⟩ := texture_names hends h
    exact ⟨.texture, name, hkeyword, hadds, htokens⟩
  · rename_i hkeyword
    obtain ⟨name, v, hheader, hbody, htokens⟩ := declaration_of_header textureLayerHeader_reads
      (fun _ => blockBody_reads Braces.stacks_balanced layerLine_reads ()) hends rfl h
    refine ⟨.textureLayer, name, hkeyword, (textureLayerHeader_names hheader).congr ?_, htokens⟩
    exact names_eq_of_lines (lines_composed layerLine_composed _ ()) hbody
  · cases h

end Declarations

end Parser

end MaterialScript
