/-
Texture declarations: `texture "name" { ... }`.

The lines of the block are collected in a draft; the texture is made and named
when the block is closed. A filter block changes the same draft.
-/
import MaterialScript.Grammar.Declaration

namespace MaterialScript

variable {σ : Type}

namespace TextureDraft

/-- The lines of a texture block, the filter block apart. -/
def attributes : Attributes TextureDraft :=
  [("imageFile", .text fun path => change fun s => { s with fileName := path }),
    ("fillColor", .color fun c d => { d with fillColor := c }),
    ("type", .ofVocabulary TextureType.vocabulary fun v => change fun s => { s with type := v }),
    ("bufferType",
      .ofVocabulary BufferType.vocabulary fun v => change fun s => { s with bufferType := v }),
    ("format",
      .ofVocabulary PixelFormat.vocabulary fun v => change fun s => { s with format := v }),
    ("formatHW",
      .ofVocabulary HardwareFormat.vocabulary fun v =>
        change fun s => { s with hardwareFormat := v }),
    ("width", .number fun v => change fun s => { s with width := v.toInt32 }),
    ("height", .number fun v => change fun s => { s with height := v.toInt32 }),
    ("depth", .number fun v => change fun s => { s with depth := v.toInt32 }),
    ("colorKey", .color fun c d => { d with colorKey := c }),
    ("renderTarget", .flag fun b d => { d with renderTarget := b })]

/-- Fills a created texture; a render target is left as it is. -/
def fill (d : TextureDraft) (t : Texture) : Texture :=
  if d.renderTarget then t
  else
    match t.settings.bufferType with
    | .ubyte => t.fillBytes d.fillColor
    | .float => t.fillFloats d.fillColor.fractions

/-- Sets a loaded texture up. -/
def setUp (d : TextureDraft) (t : Texture) : Texture :=
  let s := d.settings
  let t := ((t.setFilter s.filter).setFormat s.format).setHardwareFormat s.hardwareFormat
  let t := if s.hasSize then t.setSize s.width s.height else t
  if s.type = .tex2D then t else t.setType s.type s.depth

/-- Marks a texture as a render target, and a color of it as transparent. -/
def finish (d : TextureDraft) (t : Texture) : Texture :=
  let t := if d.renderTarget then t.setRenderTarget true else t
  if d.colorKey.alpha < 255 then t.setColorKey d.colorKey else t

/-- Makes the texture a draft describes; `none` if its file cannot be loaded. -/
def make? [RenderSystem σ] (d : TextureDraft) (system : σ) : Option Texture × σ :=
  if d.settings.fileName = "" then
    let (t, system) := RenderSystem.createTexture d.settings system
    (some (d.finish (d.fill t)), system)
  else
    let (t?, system) := RenderSystem.loadTexture d.settings.fileName system
    (t?.map fun t => d.finish (d.setUp t), system)

end TextureDraft

/-- The lines of a filter block. -/
def TextureFilter.attributes : Attributes TextureFilter :=
  [("mipMaps", .flag fun b f => { f with mipMaps := b }),
    ("anisotropy", .number fun v f => { f with anisotropy := v.toUInt32 }),
    ("wrap", .ofVocabulary WrapMode.vocabulary TextureFilter.setWrap),
    ("wrapX", .ofVocabulary WrapMode.vocabulary fun v f => { f with wrapX := v }),
    ("wrapY", .ofVocabulary WrapMode.vocabulary fun v f => { f with wrapY := v }),
    ("wrapZ", .ofVocabulary WrapMode.vocabulary fun v f => { f with wrapZ := v }),
    ("min", .ofVocabulary SampleMode.vocabulary fun v f => { f with min := v }),
    ("mag", .ofVocabulary SampleMode.vocabulary fun v f => { f with mag := v }),
    ("mip", .ofVocabulary MipMapFilter.vocabulary fun v f => { f with mip := v })]

namespace Scene

/-- Starts a new texture draft. -/
def startTexture (s : Scene σ) : Scene σ :=
  { s with drafts := { s.drafts with texture := .default } }

/-- Changes the texture draft. -/
def changeTexture (change : TextureDraft → TextureDraft) (s : Scene σ) : Scene σ :=
  { s with drafts := { s.drafts with texture := change s.drafts.texture } }

/-- The finished texture draft; a new one takes its place. -/
def takeTexture (s : Scene σ) : TextureDraft × Scene σ :=
  (s.drafts.texture, s.startTexture)

/-- Makes and adds a texture; tells whether its file could be loaded. -/
def addTexture [RenderSystem σ] (name : String) (d : TextureDraft) (s : Scene σ) :
    Bool × Scene σ :=
  match d.make? s.system with
  | (some t, system) => (true, { s with system, textures := s.textures.insert name t })
  | (none, system) => (false, { s with system })

end Scene

namespace Parser

/-- A line of a filter block. -/
def filterLine (_ : Unit) (t : Token) : Parser (Scene σ) Unit := do
  let change ← Attribute.readLine TextureFilter.attributes t
  modify (Scene.changeTexture (.changeFilter change))

/-- A line of a texture block, or its filter block. -/
def textureLine (_ : Unit) (t : Token) : Parser (Scene σ) Unit := do
  if t.text = "filter" then block filterLine ()
  else modify (Scene.changeTexture (← Attribute.readLine TextureDraft.attributes t))

/-- The header of a texture declaration, up to and with the opening brace; answers the name. -/
def textureHeader : Parser (Scene σ) String := do
  let name ← newName .texture
  expect .leftBrace
  modify Scene.startTexture
  return name

/-- Makes the texture whose block has just been closed. -/
def finishTexture [RenderSystem σ] (name : String) : Parser (Scene σ) Unit := do
  let close ← current
  let draft ← build Scene.takeTexture
  failIf (!(← build (Scene.addTexture name draft))) close (.textureLoad draft.settings.fileName)

/-- A texture declaration whose keyword has just been read. -/
def texture [RenderSystem σ] : Parser (Scene σ) Unit := do
  let name ← textureHeader
  blockBody textureLine ()
  finishTexture name

end Parser

end MaterialScript
