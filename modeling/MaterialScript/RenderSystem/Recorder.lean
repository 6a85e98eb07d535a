/-
A render system without a device.

It records what it is asked for in plain values and counts it. Every texture
file can be loaded except those listed as missing; no image is decoded. A
stage compiles when it has code, a shader when it has a stage.
-/
import MaterialScript.RenderSystem.Basic

namespace MaterialScript

/-- The state of a recording render system. -/
structure Recorder where
  backend : Backend
  supportsShaders : Bool
  /-- Texture files that cannot be loaded. -/
  missing : List String
  /-- Materials made so far. -/
  materials : Nat
  vertexFormats : Nat
  textureLayers : Nat
  shaders : Nat
  /-- Shaders compiled so far. -/
  compiled : Nat
  /-- Texture files asked for, in order. -/
  requests : List String

namespace Recorder

/-- A recorder that has not been asked for anything. -/
def ofBackend (backend : Backend) : Recorder := ⟨backend, true, [], 0, 0, 0, 0, 0, []⟩

/-- A recorder for the first of the backends. -/
def default : Recorder := ofBackend .openGl

/-- Reports shaders as unsupported. -/
def withoutShaders (r : Recorder) : Recorder := { r with supportsShaders := false }

/-- Makes loading the texture file at `path` fail. -/
def withMissing (path : String) (r : Recorder) : Recorder :=
  { r with missing := r.missing ++ [path] }

/-- The attributes an input layout stands for. -/
def formatOf : InputLayout → VertexFormat
  | .builtin format => .builtin format
  | .declared format => format

instance : RenderSystem Recorder where
  backend r := r.backend
  supportsShaders r := r.supportsShaders
  makeMaterial r := (.default, { r with materials := r.materials + 1 })
  makeVertexFormat r := (.empty, { r with vertexFormats := r.vertexFormats + 1 })
  builtinFormat _ format := .builtin format
  makeTextureLayer kind r := (.ofKind kind, { r with textureLayers := r.textureLayers + 1 })
  makeShader layout r := (.ofLayout (layout.map formatOf), { r with shaders := r.shaders + 1 })
  compileStage shader stage r :=
    if stage.source.isEmpty then (false, shader, r)
    else (true, { shader with stages := shader.stages ++ [stage] }, r)
  compileShader shader r :=
    if shader.stages.isEmpty then (false, { shader with compiled := false }, r)
    else (true, { shader with compiled := true }, { r with compiled := r.compiled + 1 })
  loadTexture path r :=
    let texture := Texture.ofSettings (some path) { TextureSettings.default with fileName := path }
    (if r.missing.contains path then none else some texture,
      { r with requests := r.requests ++ [path] })
  createTexture settings r := (.ofSettings none settings, r)

end Recorder

end MaterialScript
