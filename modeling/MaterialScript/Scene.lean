/-
What a load builds: five catalogs of resources, made by a render system.
-/
import MaterialScript.Catalog
import MaterialScript.Draft
import MaterialScript.Files
import MaterialScript.RenderSystem.Basic
import MaterialScript.ScriptError

namespace MaterialScript

/-- The resources of a script, by kind. -/
structure Resources where
  materials : Catalog Material
  shaders : Catalog Shader
  vertexFormats : Catalog VertexFormat
  textures : Catalog Texture
  textureLayers : Catalog TextureLayer

/-- No resources of any kind. -/
def Resources.empty : Resources := ⟨.empty, .empty, .empty, .empty, .empty⟩

/-- The number of resources of one kind. -/
def Resources.count (r : Resources) : ResourceKind → Nat
  | .material => r.materials.size
  | .shader => r.shaders.size
  | .vertexFormat => r.vertexFormats.size
  | .texture => r.textures.size
  | .textureLayer => r.textureLayers.size

/-- The resources read so far, the render system that makes them, the drafts of open blocks, and
the files at hand. -/
structure Scene (σ : Type) extends Resources where
  system : σ
  drafts : Drafts
  files : Files
  /-- Shader files read so far, in order. -/
  requested : List String

end MaterialScript
