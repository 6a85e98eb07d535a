/-
What a script has built stays.

The lines of a declaration change the entry declared last, which the header of
that declaration has added; nothing else changes an entry. So a script only
adds entries after those it found (`script_grows`), also where it ends with an
error.
-/
import MaterialScript.Proofs.Names

namespace MaterialScript

namespace Catalog

variable {α : Type}

/-- The entries of `c` are the oldest of `d`. -/
def Extends (c d : Catalog α) : Prop := c.entries <+: d.entries

theorem Extends.refl (c : Catalog α) : c.Extends c := List.prefix_refl _

theorem Extends.trans {c d e : Catalog α} (hcd : c.Extends d) (hde : d.Extends e) : c.Extends e :=
  List.IsPrefix.trans hcd hde

theorem extends_insert (c : Catalog α) (name : String) (value : α) :
    c.Extends (c.insert name value) := by
  unfold insert insert?
  split
  · exact .refl c
  · exact List.prefix_append _ _

/-- A name keeps its value. -/
theorem Extends.get? {c d : Catalog α} (h : c.Extends d) {name : String} {value : α}
    (hname : c.get? name = some value) : d.get? name = some value := by
  obtain ⟨added, hentries⟩ := h
  have hname : c.entries.lookup name = some value := hname
  rw [Catalog.get?, ← hentries, List.lookup_append, hname, Option.some_or]

/-- Changing the current entry keeps all that were there before it. -/
theorem Extends.modifyCurrent {c d : Catalog α} (h : c.Extends d) (hnew : c.size < d.size)
    (f : α → α) : c.Extends (d.modifyCurrent f) := by
  obtain ⟨entries⟩ := d
  obtain ⟨added, hentries⟩ := h
  have hentries : c.entries ++ added = entries := hentries
  subst hentries
  have hadded : added ≠ [] := by
    intro h
    simp [size, h] at hnew
  obtain ⟨front, ⟨name, value⟩, rfl⟩ := (List.eq_nil_or_concat added).resolve_left hadded
  refine ⟨front ++ [(name, f value)], ?_⟩
  rw [Catalog.modifyCurrent, List.concat_eq_append, ← List.append_assoc, ← List.append_assoc,
    changeLast_append]

end Catalog

namespace Resources

/-- The entries of `r`, with their values, are the oldest of `r'` in every catalog. -/
structure Extends (r r' : Resources) : Prop where
  materials : r.materials.Extends r'.materials
  shaders : r.shaders.Extends r'.shaders
  vertexFormats : r.vertexFormats.Extends r'.vertexFormats
  textures : r.textures.Extends r'.textures
  textureLayers : r.textureLayers.Extends r'.textureLayers

theorem Extends.refl (r : Resources) : r.Extends r :=
  ⟨.refl _, .refl _, .refl _, .refl _, .refl _⟩

theorem Extends.trans {r r' r'' : Resources} (h : r.Extends r') (h' : r'.Extends r'') :
    r.Extends r'' :=
  ⟨h.materials.trans h'.materials, h.shaders.trans h'.shaders,
    h.vertexFormats.trans h'.vertexFormats, h.textures.trans h'.textures,
    h.textureLayers.trans h'.textureLayers⟩

theorem length_names (r : Resources) (kind : ResourceKind) :
    (r.names kind).length = r.count kind := by
  cases kind <;> simp [names, count, Catalog.names, Catalog.size]

theorem Adds.count_lt {r r' : Resources} {kind : ResourceKind} {name : String}
    (h : r.Adds r' kind name) : r.count kind < r'.count kind := by
  rw [← length_names, ← length_names, h kind]
  simp

end Resources

section Changes

variable {σ : Type} [RenderSystem σ] {α : Type} {f : Scene σ → α × Scene σ}

theorem lineChange_count {kind : ResourceKind} (hf : LineChange kind α f) (s : Scene σ)
    (k : ResourceKind) : (f s).2.count k = s.count k := by
  rw [← Resources.length_names, lineChange_names hf, Resources.length_names]

/-- A line keeps the entries older than the one of its declaration. -/
theorem lineChange_extends {kind : ResourceKind} (hf : LineChange kind α f) {r : Resources}
    {s : Scene σ} (h : r.Extends s.toResources) (hnew : r.count kind < s.count kind) :
    r.Extends (f s).2.toResources := by
  have compile : ∀ compiler, r.count .shader < s.count .shader →
      r.Extends (Scene.compileWith compiler s).2.toResources := fun _ hnew =>
    Scene.compileWith_keeps (P := fun s => r.Extends s.toResources) h fun _ _ _ _ =>
      { h with shaders := h.shaders.modifyCurrent hnew _ }
  cases hf
  case material change => exact { h with materials := h.materials.modifyCurrent hnew change }
  case vertexFormat change =>
    exact { h with vertexFormats := h.vertexFormats.modifyCurrent hnew change }
  case textureLayer change =>
    exact { h with textureLayers := h.textureLayers.modifyCurrent hnew change }
  case compileStage => exact compile _ hnew
  case compileShader => exact compile _ hnew
  all_goals exact h

/-- The lines of a texture change its draft only. -/
theorem lineChange_texture (hf : LineChange .texture α f) (s : Scene σ) :
    (f s).2.toResources = s.toResources := by
  cases hf
  rfl

/-- Outside its lines a declaration only adds entries. -/
theorem declarationChange_extends (hf : DeclarationChange α f) (s : Scene σ) :
    s.toResources.Extends (f s).2.toResources := by
  have same := Resources.Extends.refl s.toResources
  cases hf
  case addMaterial name => exact { same with materials := Catalog.extends_insert _ name _ }
  case addShader name layout => exact { same with shaders := Catalog.extends_insert _ name _ }
  case addVertexFormat name =>
    exact { same with vertexFormats := Catalog.extends_insert _ name _ }
  case addTextureLayer name kind =>
    exact { same with textureLayers := Catalog.extends_insert _ name _ }
  case addTexture name draft =>
    exact Scene.addTexture_keeps (P := fun t => s.toResources.Extends t.toResources)
      (fun _ => same) fun _ _ => { same with textures := Catalog.extends_insert _ name _ }
  all_goals exact same

end Changes

namespace Parser

variable {σ α β : Type}

theorem textureLines_resources [RenderSystem σ] {p : Parser (Scene σ) α}
    (h : Composed (LineChange .texture) True p) (s : State (Scene σ)) :
    (p.run s).2.scene.toResources = s.scene.toResources :=
  h.keeps (fun r => r.toResources = s.scene.toResources)
    (fun _ _ r hf hr => (lineChange_texture hf r).trans hr) rfl

/-- `p` only adds to what has been built. -/
def Grows (p : Parser (Scene σ) α) : Prop :=
  ∀ s : State (Scene σ), s.scene.toResources.Extends (p.run s).2.scene.toResources

namespace Grows

variable {p : Parser (Scene σ) α} {f : α → Parser (Scene σ) β}

theorem of_looksOnly (h : Composed LooksOnly True p) : Grows p := by
  intro s
  rw [h.scene_eq]
  exact .refl _

theorem fail (e : ScriptError) : Grows (fail e : Parser (Scene σ) α) := fun _ => .refl _

theorem pure (a : α) : Grows (Pure.pure a : Parser (Scene σ) α) := fun _ => .refl _

theorem bind (hp : Grows p) (hf : ∀ a, Grows (f a)) : Grows (p >>= f) := by
  intro s
  have hs := hp s
  rw [run_bind]
  split
  · rename_i a t hrun
    rw [hrun] at hs
    exact hs.trans (hf a t)
  · rename_i e t hrun
    rw [hrun] at hs
    exact hs

theorem overTokens {body : α → Token → Parser (Scene σ) (Progress α β)}
    {finish : α → Token → Parser (Scene σ) β} (hbody : ∀ a t, Grows (body a t))
    (hfinish : ∀ a t, Grows (finish a t)) (a : α) : Grows (overTokens body finish a) := by
  intro s
  have hadvance : ∀ t : State (Scene σ), s.scene.Extends t.scene.toResources →
      s.scene.Extends (t.advance true).scene.toResources := fun _ h => h
  exact runOverTokens_keeps (I := fun t => s.scene.Extends t.scene.toResources) hadvance
    (fun a x t h => h.trans (hbody a x t)) (fun a x t h => h.trans (hfinish a x t)) (.refl _)

variable [RenderSystem σ]

theorem of_declaration (h : Composed DeclarationChange True p) : Grows p := fun s =>
  h.keeps (fun r => s.scene.Extends r.toResources)
    (fun _ _ r hf hr => hr.trans (declarationChange_extends hf r)) (.refl _)

theorem of_textureLines (h : Composed (LineChange .texture) True p) : Grows p := by
  intro s
  rw [textureLines_resources h]
  exact .refl _

/-- A header that adds an entry, and lines that change it. -/
theorem headed {kind : ResourceKind} (hp : Composed DeclarationChange True p)
    (hadds : ∀ ⦃s a u⦄, p.run s = (.ok a, u) → s.scene.count kind < u.scene.count kind)
    (hf : ∀ a, Composed (LineChange kind) True (f a)) : Grows (p >>= f) := by
  intro s
  have hs := of_declaration hp s
  rw [run_bind]
  split
  · rename_i a t hrun
    rw [hrun] at hs
    have hkeeps := (hf a).keeps
      (fun r => s.scene.Extends r.toResources ∧ s.scene.count kind < r.count kind)
      (fun _ _ r hline hr => ⟨lineChange_extends hline hr.1 hr.2, by
        rw [lineChange_count hline]
        exact hr.2⟩) ⟨hs, hadds hrun⟩
    exact hkeeps.1
  · rename_i e t hrun
    rw [hrun] at hs
    exact hs

end Grows

variable [RenderSystem σ]

theorem shader_grows : Grows (shader (σ := σ)) := by
  refine .bind (.of_looksOnly declaredName_composed) fun name =>
    .bind (.of_declaration (.build .supportsShaders)) fun supported => ?_
  split
  · exact .of_declaration (unsupportedShader_composed name)
  · exact .headed (shaderHeader_composed name) (fun s _ u h => (shaderHeader_names h).count_lt)
      fun _ => lines_composed dialectBlock_composed _ ()

theorem texture_grows : Grows (texture (σ := σ)) :=
  .bind (.of_declaration textureHeader_composed) fun name =>
    .bind (.of_textureLines (lines_composed textureLine_composed _ ())) fun _ =>
    .of_declaration (finishTexture_composed name)

theorem declaration_grows (b : Unit) (t : Token) : Grows (declaration (σ := σ) b t) := by
  unfold declaration
  split
  · exact .headed materialHeader_composed (fun s _ u h => (materialHeader_names h).count_lt)
      fun _ => lines_composed materialLine_composed _ ()
  · exact shader_grows
  · exact .headed vertexFormatHeader_composed (fun s _ u h => (vertexFormatHeader_names h).count_lt)
      fun _ => lines_composed attributeBlock_composed _ ()
  · exact texture_grows
  · exact .headed textureLayerHeader_composed (fun s _ u h => (textureLayerHeader_names h).count_lt)
      fun _ => lines_composed layerLine_composed _ ()
  · exact .fail _

theorem line_grows (b : Unit) (t : Token) : Grows (line (declaration (σ := σ)) b t) := by
  unfold line
  split
  · exact .bind (.of_looksOnly variableDefinition_composed) fun _ => .pure b
  · split
    · exact .bind (.of_looksOnly discardedBlock_composed) fun _ => .pure b
    · exact declaration_grows b t
  · exact .fail _

/-- **A script only adds to what it found**, whether it succeeds or fails. -/
theorem script_grows : Grows (script (σ := σ)) := by
  refine .overTokens (fun b t => ?_) (fun b t => ?_) ()
  · unfold lineOrClose
    split
    · exact .pure _
    · exact .bind (line_grows b t) fun _ => .pure _
  · unfold closeAtEnd
    split
    · exact .pure b
    · exact .fail _

end Parser

end MaterialScript
