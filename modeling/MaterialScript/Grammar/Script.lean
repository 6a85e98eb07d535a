/-
Scripts: declarations of the five kinds of resources up to the end of the file.
-/
import MaterialScript.Grammar.Material
import MaterialScript.Grammar.Shader
import MaterialScript.Grammar.Texture
import MaterialScript.Grammar.TextureLayer
import MaterialScript.Grammar.VertexFormat

namespace MaterialScript.Parser

variable {σ : Type}

/-- A declaration, opened by the keyword of its kind. -/
def declaration [RenderSystem σ] (_ : Unit) (t : Token) : Parser (Scene σ) Unit :=
  match t.text with
  | "material" => material
  | "shader" => shader
  | "vertexFormat" => vertexFormat
  | "texture" => texture
  | "textureLayer" => textureLayer
  | _ => unexpectedName t

/-- A whole script. -/
def script [RenderSystem σ] : Parser (Scene σ) Unit := lines .endOfFile declaration ()

end MaterialScript.Parser
