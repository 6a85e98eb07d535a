/-
What all declarations have in common: a keyword, a quoted name that is new for
its kind, and a block.
-/
import MaterialScript.Grammar.Attribute
import MaterialScript.Scene

namespace MaterialScript

variable {σ : Type}

namespace Resources

/-- A resource of this kind has this name. -/
def declares (r : Resources) : ResourceKind → String → Bool
  | .material, name => r.materials.contains name
  | .shader, name => r.shaders.contains name
  | .vertexFormat, name => r.vertexFormats.contains name
  | .texture, name => r.textures.contains name
  | .textureLayer, name => r.textureLayers.contains name

end Resources

namespace Parser

/-- Refuses a name that a resource of this kind has already. -/
def refuseDuplicate (kind : ResourceKind) (name : Token) : Parser (Scene σ) Unit := do
  failIf (← inspect (·.toResources.declares kind name.text)) name
    (.duplicateDeclaration kind name.text)

/-- The name of a new resource. -/
def newName (kind : ResourceKind) : Parser (Scene σ) String := do
  let name ← declaredName
  refuseDuplicate kind name
  return name.text

end Parser

end MaterialScript
