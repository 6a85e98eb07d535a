/-
Materials: colors, factors, switches and modes of the fixed pipeline.
-/
import MaterialScript.Resource.Color
import MaterialScript.Vocabulary

namespace MaterialScript

/-- How light is interpolated over a face. -/
inductive Shading where
  | flat | gouraud | phong | perPixel
deriving DecidableEq

/-- When a depth or alpha test passes. -/
inductive CompareMode where
  | never | equal | notEqual | less | lessEqual | greater | greaterEqual | always
deriving DecidableEq

/-- What a color is weighted with before blending. -/
inductive BlendFactor where
  | zero | one | srcColor | invSrcColor | srcAlpha | invSrcAlpha
  | destColor | invDestColor | destAlpha | invDestAlpha
deriving DecidableEq

/-- How polygons are filled. -/
inductive Wireframe where
  | points | lines | solid
deriving DecidableEq

/-- Which faces are drawn. -/
inductive Face where
  | front | back | both
deriving DecidableEq

def Shading.vocabulary : Vocabulary Shading :=
  ⟨"shading type", .flat,
    [("flat", .flat), ("gouraud", .gouraud), ("phong", .phong), ("perPixel", .perPixel)]⟩

def CompareMode.vocabulary : Vocabulary CompareMode :=
  ⟨"size compare type", .never,
    [("never", .never), ("equal", .equal), ("notEqual", .notEqual), ("less", .less),
      ("lessEqual", .lessEqual), ("greater", .greater), ("greaterEqual", .greaterEqual),
      ("always", .always)]⟩

def BlendFactor.vocabulary : Vocabulary BlendFactor :=
  ⟨"blend type", .zero,
    [("zero", .zero), ("one", .one), ("srcColor", .srcColor), ("invSrcColor", .invSrcColor),
      ("srcAlpha", .srcAlpha), ("invSrcAlpha", .invSrcAlpha), ("destColor", .destColor),
      ("invDestColor", .invDestColor), ("destAlpha", .destAlpha),
      ("invDestAlpha", .invDestAlpha)]⟩

def Wireframe.vocabulary : Vocabulary Wireframe :=
  ⟨"wireframe type", .points, [("points", .points), ("lines", .lines), ("solid", .solid)]⟩

def Face.vocabulary : Vocabulary Face :=
  ⟨"face type", .front, [("front", .front), ("back", .back), ("both", .both)]⟩

/-- The render states of a material. -/
structure Material where
  ambient : Color
  diffuse : Color
  specular : Color
  emission : Color
  shininess : Float32
  offsetFactor : Float32
  offsetUnits : Float32
  alphaReference : Float32
  colorMaterial : Bool
  lighting : Bool
  blending : Bool
  depthTest : Bool
  fog : Bool
  polygonOffset : Bool
  shading : Shading
  wireframeFront : Wireframe
  wireframeBack : Wireframe
  depthMethod : CompareMode
  alphaMethod : CompareMode
  blendSource : BlendFactor
  blendTarget : BlendFactor
  renderFace : Face

namespace Material

/-- A material before its first line. -/
def default : Material where
  ambient := .white
  diffuse := .white
  specular := .black
  emission := .black
  shininess := 0
  offsetFactor := 0
  offsetUnits := 0
  alphaReference := 0
  colorMaterial := true
  lighting := true
  blending := true
  depthTest := true
  fog := true
  polygonOffset := false
  shading := .gouraud
  wireframeFront := .solid
  wireframeBack := .solid
  depthMethod := .lessEqual
  alphaMethod := .greater
  blendSource := .srcAlpha
  blendTarget := .invSrcAlpha
  renderFace := .front

/-- Sets the fill mode of both faces. -/
def setWireframe (mode : Wireframe) (m : Material) : Material :=
  { m with wireframeFront := mode, wireframeBack := mode }

end Material

end MaterialScript
