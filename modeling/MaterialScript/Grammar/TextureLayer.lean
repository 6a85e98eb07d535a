/-
Texture layer declarations: `textureLayer "name" kind { ... }`.

A line that belongs to another kind of layer is read and has no effect.
-/
import MaterialScript.Grammar.Declaration

namespace MaterialScript

variable {σ : Type}

namespace TextureLayer

/-- Changes the settings only fixed-function layers have. -/
def changeStandard (f : StandardLayer → StandardLayer) (l : TextureLayer) : TextureLayer :=
  { l with kind := l.kind.modifyStandard f }

/-- Changes the settings only relief layers have. -/
def changeRelief (f : ReliefLayer → ReliefLayer) (l : TextureLayer) : TextureLayer :=
  { l with kind := l.kind.modifyRelief f }

/-- The lines of a layer block, the binding of a texture apart. -/
def attributes : Attributes TextureLayer :=
  [("enable", .flag fun b l => { l with enabled := b }),
    ("visibleMask", .number fun v l => { l with visibleMask := v.toInt64.toUInt64.toUInt32 }),
    ("index", .number fun v l => { l with index := v.toUInt8 }),
    ("environment",
      .ofVocabulary TextureEnvironment.vocabulary fun v =>
        changeStandard fun s => { s with environment := v }),
    ("mapping",
      .ofVocabulary CoordinateMapping.vocabulary fun v =>
        changeStandard fun s => { s with mapping := v }),
    ("reliefEnable", .flag fun b => changeRelief fun s => { s with enabled := b }),
    ("heightMapScale",
      .number fun v => changeRelief fun s => { s with heightMapScale := v.toFloat32 }),
    ("viewRange", .number fun v => changeRelief fun s => { s with viewRange := v.toFloat32 }),
    ("minSamples", .number fun v => changeRelief fun s => { s with minSamples := v.toInt32 }),
    ("maxSamples", .number fun v => changeRelief fun s => { s with maxSamples := v.toInt32 })]

end TextureLayer

namespace Scene

/-- Adds a texture layer, which becomes the current one. -/
def addTextureLayer [RenderSystem σ] (name : String) (kind : LayerKind) (s : Scene σ) :
    Scene σ :=
  let (layer, system) := RenderSystem.makeTextureLayer kind s.system
  { s with system, textureLayers := s.textureLayers.insert name layer }

/-- Changes the current texture layer. -/
def changeTextureLayer (change : TextureLayer → TextureLayer) (s : Scene σ) : Scene σ :=
  { s with textureLayers := s.textureLayers.modifyCurrent change }

end Scene

namespace Parser

/-- The texture a layer is bound to; a layer bound to an unknown one has none. -/
def boundTexture : Parser (Scene σ) (Option String) := do
  let name ← nameOrText
  if ← inspect (·.textures.contains name) then return some name
  else
    note [.warning ("Unknown texture named \"" ++ name ++ "\"")]
    return none

/-- A line of a layer block. -/
def layerLine (_ : Unit) (t : Token) : Parser (Scene σ) Unit := do
  if t.text = "tex" then
    let texture ← boundTexture
    modify (Scene.changeTextureLayer ({ · with texture }))
  else
    modify (Scene.changeTextureLayer (← Attribute.readLine TextureLayer.attributes t))

/-- The bare word for the kind of a layer. -/
def layerKind : Parser (Scene σ) LayerKind := do
  let t ← next
  if t.kind = .name then
    match LayerKind.ofKeyword? t.text with
    | some kind => return kind
    | none => failAt t (.unknownLayerType t.text)
  else unexpected t

/-- The header of a texture layer declaration, up to and with the opening brace; answers the
name. -/
def textureLayerHeader [RenderSystem σ] : Parser (Scene σ) String := do
  let name ← newName .textureLayer
  let kind ← layerKind
  expect .leftBrace
  modify (Scene.addTextureLayer name kind)
  return name

/-- A texture layer declaration whose keyword has just been read. -/
def textureLayer [RenderSystem σ] : Parser (Scene σ) Unit := do
  let _ ← textureLayerHeader
  blockBody layerLine ()

end Parser

end MaterialScript
