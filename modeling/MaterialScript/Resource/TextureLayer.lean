/-
Texture layers: a texture bound to a place in the pipeline of a material.

A layer is of one of three kinds, and two of them have settings of their own.
-/
import MaterialScript.Vocabulary

namespace MaterialScript

/-- How a layer combines with the layers below it. -/
inductive TextureEnvironment where
  | modulate | replace | add | addSigned | subtract | interpolate | dot3
deriving DecidableEq

/-- How texture coordinates are made. -/
inductive CoordinateMapping where
  | disable | objectLinear | eyeLinear | sphereMap | normalMap | reflectionMap
deriving DecidableEq

def TextureEnvironment.vocabulary : Vocabulary TextureEnvironment :=
  ⟨"texture environment type", .modulate,
    [("modulate", .modulate), ("replace", .replace), ("add", .add), ("addSigned", .addSigned),
      ("subtract", .subtract), ("interpolate", .interpolate), ("dot3", .dot3)]⟩

def CoordinateMapping.vocabulary : Vocabulary CoordinateMapping :=
  ⟨"texture coordinates mapping generation", .disable,
    [("disable", .disable), ("objectLinear", .objectLinear), ("eyeLinear", .eyeLinear),
      ("sphereMap", .sphereMap), ("normalMap", .normalMap), ("reflectionMap", .reflectionMap)]⟩

/-- Settings of a fixed-function layer. -/
structure StandardLayer where
  environment : TextureEnvironment
  mapping : CoordinateMapping

/-- Settings of a relief mapping layer. -/
structure ReliefLayer where
  enabled : Bool
  heightMapScale : Float32
  viewRange : Float32
  minSamples : Int32
  maxSamples : Int32

/-- The kind of a layer with the settings only that kind has. -/
inductive LayerKind where
  | base
  | standard (settings : StandardLayer)
  | relief (settings : ReliefLayer)

namespace LayerKind

/-- The kind a layer's header names, with its default settings. -/
def ofKeyword? : String → Option LayerKind
  | "base" => some base
  | "standard" => some (standard ⟨.modulate, .disable⟩)
  | "relief" => some (relief ⟨true, 0.015, 2, 0, 50⟩)
  | _ => none

/-- The word for a kind. -/
def name : LayerKind → String
  | base => "base"
  | standard _ => "standard"
  | relief _ => "relief"

/-- Changes the settings of a fixed-function layer; other kinds have none to change. -/
def modifyStandard (f : StandardLayer → StandardLayer) : LayerKind → LayerKind
  | standard settings => standard (f settings)
  | kind => kind

/-- Changes the settings of a relief layer; other kinds have none to change. -/
def modifyRelief (f : ReliefLayer → ReliefLayer) : LayerKind → LayerKind
  | relief settings => relief (f settings)
  | kind => kind

end LayerKind

/-- A texture layer. -/
structure TextureLayer where
  /-- The name of the texture that is bound. -/
  texture : Option String
  enabled : Bool
  visibleMask : UInt32
  index : UInt8
  kind : LayerKind

/-- A layer before its first line. -/
def TextureLayer.ofKind (kind : LayerKind) : TextureLayer where
  texture := none
  enabled := true
  visibleMask := 0xFFFFFFFF
  index := 0
  kind := kind

end MaterialScript
