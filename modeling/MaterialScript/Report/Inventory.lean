/-
The list of what a script declares.
-/
import MaterialScript.Report.Styled
import MaterialScript.Scene

namespace MaterialScript.Report

/-- "1 stage", "3 stages". -/
def plural (count : Nat) (noun : String) : String :=
  if count = 1 then "1 " ++ noun else toString count ++ " " ++ noun ++ "s"

/-- A name between double quotes. -/
def quoted (name : String) : String := "\"" ++ name ++ "\""

/-- A resource: its kind, its name, and what there is to say about it. -/
def entry (kind : ResourceKind) (name : String) (details : List String) : StyledLine :=
  let said := if details.isEmpty then "" else ": " ++ ", ".intercalate details
  [.green kind.noun, .plain (" " ++ quoted name ++ said)]

/-- The number of stages, and whether they have been compiled. -/
def shaderDetails (s : Shader) : List String :=
  [plural s.stages.length "stage", if s.compiled then "compiled" else "not compiled"]

/-- Where a texture comes from, and whether it is drawn to. -/
def textureDetails (t : Texture) : List String :=
  let origin :=
    match t.source with
    | some path => "loaded from " ++ quoted path
    | none => "created " ++ toString t.settings.width ++ "x" ++ toString t.settings.height
  origin :: if t.renderTarget then ["render target"] else []

/-- The kind of a layer, and the texture it is bound to. -/
def layerDetails (l : TextureLayer) : List String :=
  [l.kind.name,
    match l.texture with
    | some texture => "texture " ++ quoted texture
    | none => "no texture"]

/-- Every resource, by kind and in the order of declaration. -/
def inventory (r : Resources) : List StyledLine :=
  (r.materials.entries.map fun (name, _) => entry .material name [])
    ++ (r.shaders.entries.map fun (name, s) => entry .shader name (shaderDetails s))
    ++ (r.vertexFormats.entries.map fun (name, f) =>
      entry .vertexFormat name [plural f.size "attribute"])
    ++ (r.textures.entries.map fun (name, t) => entry .texture name (textureDetails t))
    ++ (r.textureLayers.entries.map fun (name, l) => entry .textureLayer name (layerDetails l))

end MaterialScript.Report
