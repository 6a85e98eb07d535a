/-
What the lines of a material set.

A material is the default one with the fields set that its own lines name, in their order
(`material_given`).
-/
import MaterialScript.Proofs.Fields
import MaterialScript.RenderSystem.Recorder

namespace MaterialScript

namespace Material

/-- The fields of a material. -/
inductive Field where
  | ambient | diffuse | specular | emission
  | shininess | offsetFactor | offsetUnits | alphaReference
  | colorMaterial | lighting | blending | depthTest | fog | polygonOffset
  | shading | wireframeFront | wireframeBack | depthMethod | alphaMethod
  | blendSource | blendTarget | renderFace
deriving DecidableEq

/-- The type of a field. -/
@[reducible] def Field.Value : Field → Type
  | ambient | diffuse | specular | emission => Color
  | shininess | offsetFactor | offsetUnits | alphaReference => Float32
  | colorMaterial | lighting | blending | depthTest | fog | polygonOffset => Bool
  | shading => Shading
  | wireframeFront | wireframeBack => Wireframe
  | depthMethod | alphaMethod => CompareMode
  | blendSource | blendTarget => BlendFactor
  | renderFace => Face

/-- The value of a field. -/
def get (m : Material) : (f : Field) → f.Value
  | .ambient => m.ambient
  | .diffuse => m.diffuse
  | .specular => m.specular
  | .emission => m.emission
  | .shininess => m.shininess
  | .offsetFactor => m.offsetFactor
  | .offsetUnits => m.offsetUnits
  | .alphaReference => m.alphaReference
  | .colorMaterial => m.colorMaterial
  | .lighting => m.lighting
  | .blending => m.blending
  | .depthTest => m.depthTest
  | .fog => m.fog
  | .polygonOffset => m.polygonOffset
  | .shading => m.shading
  | .wireframeFront => m.wireframeFront
  | .wireframeBack => m.wireframeBack
  | .depthMethod => m.depthMethod
  | .alphaMethod => m.alphaMethod
  | .blendSource => m.blendSource
  | .blendTarget => m.blendTarget
  | .renderFace => m.renderFace

/-- The material with another value in one field. -/
def set (m : Material) : (f : Field) → f.Value → Material
  | .ambient, v => { m with ambient := v }
  | .diffuse, v => { m with diffuse := v }
  | .specular, v => { m with specular := v }
  | .emission, v => { m with emission := v }
  | .shininess, v => { m with shininess := v }
  | .offsetFactor, v => { m with offsetFactor := v }
  | .offsetUnits, v => { m with offsetUnits := v }
  | .alphaReference, v => { m with alphaReference := v }
  | .colorMaterial, v => { m with colorMaterial := v }
  | .lighting, v => { m with lighting := v }
  | .blending, v => { m with blending := v }
  | .depthTest, v => { m with depthTest := v }
  | .fog, v => { m with fog := v }
  | .polygonOffset, v => { m with polygonOffset := v }
  | .shading, v => { m with shading := v }
  | .wireframeFront, v => { m with wireframeFront := v }
  | .wireframeBack, v => { m with wireframeBack := v }
  | .depthMethod, v => { m with depthMethod := v }
  | .alphaMethod, v => { m with alphaMethod := v }
  | .blendSource, v => { m with blendSource := v }
  | .blendTarget, v => { m with blendTarget := v }
  | .renderFace, v => { m with renderFace := v }

theorem get_set_self (m : Material) (f : Field) (v : f.Value) : (m.set f v).get f = v := by
  cases f <;> rfl

theorem get_set_of_ne (m : Material) {f g : Field} (v : f.Value) (h : f ≠ g) :
    (m.set f v).get g = m.get g := by
  cases f <;> cases g <;> first | rfl | exact absurd rfl h

/-- A material has all fields. -/
@[reducible] def fields : Fields Material where
  Field := Field
  Value := Field.Value
  get? m f := some (m.get f)
  set := set
  get?_set_self m f v := congrArg some (m.get_set_self f v)
  get?_set_of_ne m _ _ v h := congrArg some (m.get_set_of_ne v h)

/-- A field has the last value given for it, else the one it had. -/
theorem get_after (m : Material) (given : List fields.Setting) (f : Field) :
    (fields.after m given).get f = (Fields.last? given f).getD (m.get f) :=
  Option.some.inj (fields.get?_after m given f)

/-- The lines of a material: one for every field, and one for both faces. -/
def lines : List fields.Line :=
  [.sets "ambient" .ambient .color,
    .sets "diffuse" .diffuse .color,
    .sets "specular" .specular .color,
    .sets "emission" .emission .color,
    .sets "shininess" .shininess (.number Float.toFloat32),
    .sets "offsetFactor" .offsetFactor (.number Float.toFloat32),
    .sets "offsetUnits" .offsetUnits (.number Float.toFloat32),
    .sets "alphaReference" .alphaReference (.number Float.toFloat32),
    .sets "colorMaterial" .colorMaterial .flag,
    .sets "lighting" .lighting .flag,
    .sets "blending" .blending .flag,
    .sets "depthTest" .depthTest .flag,
    .sets "fog" .fog .flag,
    .sets "polygonOffset" .polygonOffset .flag,
    .sets "shading" .shading (.keyword Shading.vocabulary),
    ⟨"wireframe", Wireframe, .keyword Wireframe.vocabulary,
      fun v => [⟨.wireframeFront, v⟩, ⟨.wireframeBack, v⟩]⟩,
    .sets "wireframeFront" .wireframeFront (.keyword Wireframe.vocabulary),
    .sets "wireframeBack" .wireframeBack (.keyword Wireframe.vocabulary),
    .sets "depthMethod" .depthMethod (.keyword CompareMode.vocabulary),
    .sets "alphaMethod" .alphaMethod (.keyword CompareMode.vocabulary),
    .sets "blendSource" .blendSource (.keyword BlendFactor.vocabulary),
    .sets "blendTarget" .blendTarget (.keyword BlendFactor.vocabulary),
    .sets "renderFace" .renderFace (.keyword Face.vocabulary)]

theorem attributes_eq : attributes = lines.map (·.attribute) := rfl

end Material

namespace Parser

/-- How a material block describes the material that has been added to `r`. -/
def materialDescription (r : Scene Recorder) (name : String) :
    Description (Scene Recorder) Unit Material Material.fields.Setting where
  add m x := m.set x.1 x.2
  carried _ := ()
  scene m := { r.addMaterial name with materials := r.materials.push name m }
  around := r

theorem materialLine_gives (r : Scene Recorder) (name : String) :
    (materialDescription r name).Follows (Fields.Gives Material.lines) materialLine := by
  intro m s _ u hs h
  obtain ⟨given, hgives, hscene⟩ :=
    readLine_modify_gives Material.attributes_eq h r
  refine ⟨given, hgives, rfl, ?_⟩
  rw [hscene, hs, Scene.changeMaterial]
  simp only [materialDescription, Catalog.modifyCurrent_push]
  rfl

/-- **A material is made by its own lines.** Reading a material declaration adds one material, at
the end and under the name in its header; earlier ones and all other resources stay as they are.
The material is the default one with the fields set that the lines of the block give values for, in
their order: so a field has the value of the last line that gives it one, or its default. -/
theorem material_given {s w : State (Scene Recorder)} (h : material.run s = (.ok (), w)) :
    ∃ name u given, Headed .material s name u ∧
      BlockGives (Fields.Gives Material.lines) u given (w.inScene s.scene) ∧
      w.scene.toResources = { s.scene.toResources with
        materials := s.scene.materials.push name (Material.fields.after .default given) } ∧
      ∀ f, (Material.fields.after .default given).get f =
        (Fields.last? given f).getD (Material.default.get f) := by
  obtain ⟨name, u, hheader, hbody⟩ := run_bind_eq_ok h
  obtain ⟨hheaded, hscene⟩ := Headed.of_run hheader
  have hstart : u.scene = (materialDescription s.scene name).scene .default := by
    rw [hscene]
    exact congrArg (fun c => { s.scene.addMaterial name with materials := c })
      (Catalog.insert_of_not_mem hheaded.not_mem _)
  obtain ⟨given, hgiven, -, hw⟩ :=
    Description.block_gives (materialLine_gives s.scene name) hstart hbody
  refine ⟨name, _, given, hheaded, hgiven, ?_, Material.get_after _ given⟩
  rw [hw]
  rfl

/-- A material with a definition, a block to discard and lines that say a thing twice. -/
theorem material_given_stone :
    let name (text : String) : Token := ⟨.name, text, .start⟩
    let string (text : String) : Token := ⟨.string, text, .start⟩
    let symbol (s : Symbol) : Token := .bare (.symbol s) .start
    let tokens :=
      [name "material", string "stone", symbol .leftBrace, name "lighting", name "false",
        name "wireframe", name "lines", symbol .atSign, name "x", symbol .equal, string "y",
        .bare .newline .start, name "wireframeBack", name "points", name "discard",
        symbol .leftBrace, name "fog", name "false", symbol .rightBrace, name "lighting",
        symbol .equal, name "true", symbol .rightBrace, .bare .endOfFile .start]
    let start := (Loader.new Recorder.default "/").start (fun _ => .error .notFound) tokens
    let s := start.advance true
    ∃ w, material.run s = (.ok (), w) ∧
      (∃ name u given, Headed .material s name u ∧
        BlockGives (Fields.Gives Material.lines) u given (w.inScene s.scene) ∧
        w.scene.materials =
          s.scene.materials.push name (Material.fields.after .default given) ∧
        ∀ f, (Material.fields.after .default given).get f =
          (Fields.last? given f).getD (Material.default.get f)) ∧
      w.scene.materials.entries.map (fun entry => (entry.1, entry.2.lighting, entry.2.fog,
        entry.2.wireframeFront, entry.2.wireframeBack)) =
        [("stone", true, true, .lines, .points)] := by
  intro name string symbol tokens start s
  have hanswer : (material.run s).1 = .ok () := by decide +kernel
  obtain ⟨w, hrun, hseen⟩ : ∃ w, material.run s = (.ok (), w) ∧
      w.scene.materials.entries.map (fun entry => (entry.1, entry.2.lighting, entry.2.fog,
        entry.2.wireframeFront, entry.2.wireframeBack)) =
        [("stone", true, true, .lines, .points)] :=
    ⟨_, run_of_answer hanswer, by decide +kernel⟩
  obtain ⟨name, u, given, hheaded, hgiven, hmade, hfields⟩ := material_given hrun
  exact ⟨w, hrun, ⟨name, u, given, hheaded, hgiven, congrArg Resources.materials hmade, hfields⟩,
    hseen⟩

end Parser

end MaterialScript
