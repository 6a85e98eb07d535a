/-
Material declarations: `material "name" { ... }`.
-/
import MaterialScript.Grammar.Declaration

namespace MaterialScript

variable {σ : Type}

/-- The lines of a material block. -/
def Material.attributes : Attributes Material :=
  [("ambient", .color fun c m => { m with ambient := c }),
    ("diffuse", .color fun c m => { m with diffuse := c }),
    ("specular", .color fun c m => { m with specular := c }),
    ("emission", .color fun c m => { m with emission := c }),
    ("shininess", .number fun v m => { m with shininess := v.toFloat32 }),
    ("offsetFactor", .number fun v m => { m with offsetFactor := v.toFloat32 }),
    ("offsetUnits", .number fun v m => { m with offsetUnits := v.toFloat32 }),
    ("alphaReference", .number fun v m => { m with alphaReference := v.toFloat32 }),
    ("colorMaterial", .flag fun b m => { m with colorMaterial := b }),
    ("lighting", .flag fun b m => { m with lighting := b }),
    ("blending", .flag fun b m => { m with blending := b }),
    ("depthTest", .flag fun b m => { m with depthTest := b }),
    ("fog", .flag fun b m => { m with fog := b }),
    ("polygonOffset", .flag fun b m => { m with polygonOffset := b }),
    ("shading", .ofVocabulary Shading.vocabulary fun v m => { m with shading := v }),
    ("wireframe", .ofVocabulary Wireframe.vocabulary Material.setWireframe),
    ("wireframeFront",
      .ofVocabulary Wireframe.vocabulary fun v m => { m with wireframeFront := v }),
    ("wireframeBack",
      .ofVocabulary Wireframe.vocabulary fun v m => { m with wireframeBack := v }),
    ("depthMethod", .ofVocabulary CompareMode.vocabulary fun v m => { m with depthMethod := v }),
    ("alphaMethod", .ofVocabulary CompareMode.vocabulary fun v m => { m with alphaMethod := v }),
    ("blendSource", .ofVocabulary BlendFactor.vocabulary fun v m => { m with blendSource := v }),
    ("blendTarget", .ofVocabulary BlendFactor.vocabulary fun v m => { m with blendTarget := v }),
    ("renderFace", .ofVocabulary Face.vocabulary fun v m => { m with renderFace := v })]

namespace Scene

/-- Adds a material, which becomes the current one. -/
def addMaterial [RenderSystem σ] (name : String) (s : Scene σ) : Scene σ :=
  let (material, system) := RenderSystem.makeMaterial s.system
  { s with system, materials := s.materials.insert name material }

/-- Changes the current material. -/
def changeMaterial (change : Material → Material) (s : Scene σ) : Scene σ :=
  { s with materials := s.materials.modifyCurrent change }

end Scene

namespace Parser

/-- A line of a material block. -/
def materialLine (_ : Unit) (t : Token) : Parser (Scene σ) Unit := do
  modify (Scene.changeMaterial (← Attribute.readLine Material.attributes t))

/-- The header of a material declaration, up to and with the opening brace; answers the name. -/
def materialHeader [RenderSystem σ] : Parser (Scene σ) String := do
  let name ← newName .material
  expect .leftBrace
  modify (Scene.addMaterial name)
  return name

/-- A material declaration whose keyword has just been read. -/
def material [RenderSystem σ] : Parser (Scene σ) Unit := do
  let _ ← materialHeader
  blockBody materialLine ()

end Parser

end MaterialScript
