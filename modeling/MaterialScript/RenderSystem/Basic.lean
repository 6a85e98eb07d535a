/-
Render systems: where the resources of a script come from.

A load asks its render system for every resource a script declares and then
changes the resource line by line. Shader code is compiled as it is read.
-/
import MaterialScript.Resource.Material
import MaterialScript.Resource.Shader
import MaterialScript.Resource.Texture
import MaterialScript.Resource.TextureLayer

namespace MaterialScript

/-- The vertex format a shader is made for: one of the render system's own, or a declared one. -/
inductive InputLayout where
  | builtin (format : BuiltinFormat)
  | declared (format : VertexFormat)

/-- A device that makes resources; `σ` is its state. -/
class RenderSystem (σ : Type) where
  backend : σ → Backend
  supportsShaders : σ → Bool := fun _ => true
  makeMaterial : σ → Material × σ
  /-- An empty format for a declaration to fill. -/
  makeVertexFormat : σ → VertexFormat × σ
  builtinFormat : σ → BuiltinFormat → VertexFormat
  makeTextureLayer : LayerKind → σ → TextureLayer × σ
  makeShader : Option InputLayout → σ → Shader × σ
  /-- Compiles one stage into a shader; false if that fails. -/
  compileStage : Shader → ShaderStage → σ → Bool × Shader × σ
  /-- Links the stages of a shader; false if that fails. -/
  compileShader : Shader → σ → Bool × Shader × σ
  /-- The texture in an image file, if it can be read. -/
  loadTexture : String → σ → Option Texture × σ
  createTexture : TextureSettings → σ → Texture × σ

end MaterialScript
