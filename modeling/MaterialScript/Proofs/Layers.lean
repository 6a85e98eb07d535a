/-
Texture layers are bound to textures there are.

A `tex` line binds its layer to a name that the textures hold at that moment, or
to none, and textures are only added until the next load starts over. So every
layer a host can come across is bound to a texture that is there, or to none,
also where a load has failed in the middle of a block.
-/
import MaterialScript.Proofs.Points
import MaterialScript.Proofs.Reachable
import MaterialScript.RenderSystem.Recorder

namespace MaterialScript

/-- The texture each layer is bound to, if any, is there. -/
def Resources.LayersBound (r : Resources) : Prop :=
  r.textureLayers.All fun layer => ∀ name, layer.texture = some name → name ∈ r.textures.names

/-- The lines of a layer, `tex` apart, leave its texture as it is. -/
theorem TextureLayer.texture_attributes : ∀ e ∈ TextureLayer.attributes,
    e.2.All fun change => ∀ l : TextureLayer, (change l).texture = l.texture := by
  intro e he
  simp only [attributes, List.mem_cons, List.not_mem_nil, or_false] at he
  rcases he with rfl | rfl | rfl | rfl | rfl | rfl | rfl | rfl | rfl | rfl
  all_goals first
    | exact Attribute.all_ofVocabulary fun _ _ => rfl
    | exact fun _ _ => rfl

namespace Resources.LayersBound

variable {σ : Type} [RenderSystem σ] {s : Scene σ} {α : Type} {f : Scene σ → α × Scene σ}

omit [RenderSystem σ] in
theorem changeTextureLayer {change : TextureLayer → TextureLayer} (h : s.LayersBound)
    (hchange : ∀ l name, (change l).texture = some name →
      l.texture = some name ∨ name ∈ s.textures.names) :
    (s.changeTextureLayer change).LayersBound :=
  Catalog.All.modifyCurrent h fun l hl name hname => (hchange l name hname).elim (hl name) id

/-- Lines that are not a layer's leave textures and layers as they are. -/
theorem line {kind : ResourceKind} (hkind : kind ≠ .textureLayer) (hf : LineChange kind α f)
    (h : s.LayersBound) : (f s).2.LayersBound := by
  have compile : ∀ compiler, (Scene.compileWith compiler s).2.LayersBound := fun _ =>
    Scene.compileWith_keeps (P := fun s => s.LayersBound) h fun _ _ _ _ => h
  cases hf
  case textureLayer => exact absurd rfl hkind
  case compileStage => exact compile _
  case compileShader => exact compile _
  all_goals exact h

/-- A declaration adds a layer without a texture, or a texture. -/
theorem declaration
    (hnew : ∀ kind (r : σ), (RenderSystem.makeTextureLayer kind r).1.texture = none)
    (hf : DeclarationChange α f) (h : s.LayersBound) : (f s).2.LayersBound := by
  cases hf
  case addTextureLayer name kind =>
    refine Catalog.All.insert h name fun texture htexture => ?_
    cases (hnew kind s.system).symm.trans htexture
  case addTexture name draft =>
    refine Scene.addTexture_keeps (P := fun s => s.LayersBound) (fun _ => h) fun _ _ => ?_
    refine Catalog.All.mono h fun layer hlayer texture htexture => ?_
    rcases s.textures.names_insert name _ with hsame | ⟨-, hmore⟩
    · rw [hsame]
      exact hlayer texture htexture
    · rw [hmore]
      exact List.mem_append_left _ (hlayer texture htexture)
  all_goals exact h

end Resources.LayersBound

namespace Parser

variable {σ : Type} [RenderSystem σ]

/-- What holds of a scene whose layers are bound to textures there are. -/
abbrev LayersBound (s : Scene σ) : Prop := s.toResources.LayersBound

omit [RenderSystem σ] in
/-- The texture a layer is bound to is one of the textures. -/
theorem boundTexture_bound :
    Triple LayersBound boundTexture
      (fun texture (s : Scene σ) => LayersBound s ∧ ∀ name ∈ texture, name ∈ s.textures.names)
      LayersBound := by
  refine .bind (.of_looksOnly nameOrText_composed fun _ h => h) fun name =>
    .bind (Q := fun (found : Bool) s => LayersBound s ∧ (found → name ∈ s.textures.names))
      (.inspect fun s h => ⟨h, (s.textures.contains_iff name).1⟩) fun found => ?_
  split
  · rename_i hfound
    refine .pure fun s h => ⟨h.1, fun n hn => ?_⟩
    rw [Option.mem_def, Option.some.injEq] at hn
    rw [← hn]
    exact h.2 hfound
  · exact .bind (.of_looksOnly (.note _) fun _ h => h.1) fun _ => .pure fun s h => ⟨h.1, nofun⟩

omit [RenderSystem σ] in
theorem layerLine_bound (b : Unit) (t : Token) :
    Triple LayersBound (layerLine (σ := σ) b t) (fun _ => LayersBound) LayersBound := by
  unfold layerLine
  split
  · refine .bind boundTexture_bound fun texture => .modify fun s h => ?_
    exact h.1.changeTextureLayer fun l name hname => .inr (h.2 name hname)
  · refine .bind (.readLine TextureLayer.texture_attributes t fun _ h => h) fun change =>
      .modify fun s h => ?_
    exact h.2.changeTextureLayer fun l name hname => .inl (by rwa [h.1 l] at hname)

section Script

variable (hnew : ∀ kind (r : σ), (RenderSystem.makeTextureLayer kind r).1.texture = none)
include hnew

theorem declaration_bound (b : Unit) (t : Token) :
    Triple LayersBound (declaration (σ := σ) b t) (fun _ => LayersBound) LayersBound := by
  refine .declaration (fun _ h => h) (fun hf h => h.declaration hnew hf) (fun kind => ?_) b t
  by_cases hkind : kind = .textureLayer
  · rw [hkind]
    exact .lines layerLine_bound (fun _ _ h => h) ()
  · exact .of_composed (declaredBlock_composed kind) (fun _ _ _ hf h => h.line hkind hf)
      fun _ h => h

theorem script_bound :
    Triple LayersBound (script (σ := σ)) (fun _ => LayersBound) LayersBound :=
  .lines (declaration_bound hnew) (fun _ _ h => h) ()

end Script

omit [RenderSystem σ] in
/-- A `tex` line that names no texture there is unbinds the current layer, and warns once. -/
theorem layerLine_unknown {s v : State (Scene σ)} {t : Token} {name : String} (ht : t.text = "tex")
    (hname : nameOrText.run s = (.ok name, v)) (hunknown : name ∉ s.scene.textures.names) :
    (layerLine () t).run s =
      (.ok (),
        { v with
          journal := v.journal ++ [.warning ("Unknown texture named \"" ++ name ++ "\"")]
          scene := s.scene.changeTextureLayer ({ · with texture := none }) }) := by
  have hscene : v.scene = s.scene := by
    have hsame := nameOrText_composed.scene_eq s
    rw [hname] at hsame
    exact hsame
  have hcontains : v.scene.textures.contains name = false := by
    rw [hscene, ← Bool.not_eq_true, Catalog.contains_iff]
    exact hunknown
  have hbound : (boundTexture (σ := σ)).run s =
      (.ok none,
        { v with
          journal := v.journal ++
            [.warning ("Unknown texture named \"" ++ name ++ "\"")] }) := by
    rw [boundTexture, run_bind, hname]
    simp only [run_bind, inspect, Parser.build, hcontains, Bool.false_eq_true, if_false]
    rfl
  rw [layerLine, if_pos ht, run_bind, hbound, ← hscene]
  rfl

end Parser

namespace Loader

variable {σ : Type} [RenderSystem σ]

/-- **Texture layers never point at a texture that does not exist**, where a render system makes
layers without a texture.
- Whatever a host has done with a loader, each layer it holds that is bound to a texture is bound to
  one that the loader holds, too.
- A `tex` line that names no texture there is leaves the current layer with none, whatever it was
  bound to, and appends one warning to what reading the name has noted. -/
theorem textureLayers_bound
    (hnew : ∀ kind (r : σ), (RenderSystem.makeTextureLayer kind r).1.texture = none) :
    (∀ l : Loader σ, l.Reachable → ∀ entry ∈ l.resources.textureLayers.entries, ∀ name,
      entry.2.texture = some name → l.resources.textures.contains name) ∧
    ∀ (s v : Parser.State (Scene σ)) (t : Token) (name : String), t.text = "tex" →
      Parser.nameOrText.run s = (.ok name, v) → s.scene.textures.contains name = false →
      let unbound := s.scene.changeTextureLayer ({ · with texture := none })
      (Parser.layerLine () t).run s =
        (.ok (),
          { v with
            journal := v.journal ++ [.warning ("Unknown texture named \"" ++ name ++ "\"")]
            scene := unbound }) ∧
      ∀ front key layer, s.scene.textureLayers.entries = front ++ [(key, layer)] →
        unbound.textureLayers.entries = front ++ [(key, { layer with texture := none })] := by
  refine ⟨fun l hl entry hentry name hname => ?_, fun s v t name ht hname hunknown => ⟨?_, ?_⟩⟩
  · have hbound : l.resources.LayersBound :=
      hl.invariant (Catalog.all_empty _) fun s hs => by
        refine (Parser.script_bound hnew).ends (s := s) ?_
        rw [Parser.LayersBound, hs.resources]
        exact Catalog.all_empty _
    exact (Catalog.contains_iff _ _).2 (hbound entry hentry name hname)
  · refine Parser.layerLine_unknown ht hname ?_
    rw [← Catalog.contains_iff, hunknown]
    exact Bool.false_ne_true
  · intro front key layer hentries
    change (Catalog.modifyCurrent _ s.scene.textureLayers).entries = _
    rw [Catalog.modifyCurrent, hentries, Catalog.changeLast_append]

/-- The first layer is bound, and then to a texture that is not there; the second stays bound. The
third is bound before the load breaks off. -/
theorem textureLayers_bound_recorder :
    let source := "texture \"stone\" \x7b \x7d\n" ++
      "textureLayer \"a\" base \x7b\n tex \"stone\"\n tex \"sand\"\n \x7d\n" ++
      "textureLayer \"b\" relief \x7b\n tex stone\n \x7d\n" ++
      "textureLayer \"c\" base \x7b\n tex stone\n nope\n \x7d\n"
    let files : Files := fun _ => .error .notFound
    let l := (Loader.new Recorder.default "/").after [(files, .loadSource source)]
    (∀ kind (r : Recorder), (RenderSystem.makeTextureLayer kind r).1.texture = none) ∧
      l.resources.textureLayers.entries.map (fun entry => (entry.1, entry.2.texture)) =
        [("a", none), ("b", some "stone"), ("c", some "stone")] ∧
      ∀ entry ∈ l.resources.textureLayers.entries, ∀ name, entry.2.texture = some name →
        l.resources.textures.contains name := by
  have hnew : ∀ kind (r : Recorder), (RenderSystem.makeTextureLayer kind r).1.texture = none :=
    fun _ _ => rfl
  refine ⟨hnew, ?_, ?_⟩
  · decide +kernel
  · exact (textureLayers_bound hnew).1 _ ((Reachable.new _ _).after _)

end Loader

end MaterialScript
