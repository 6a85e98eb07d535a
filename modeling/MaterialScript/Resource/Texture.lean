/-
Textures and the settings they are made from.

A texture is loaded from an image file or created from its settings. A created
texture is filled with one color unless it is a render target.
-/
import MaterialScript.Resource.Color
import MaterialScript.Vocabulary

namespace MaterialScript

/-- The shape of a texture and the way shaders reach it. -/
inductive TextureType where
  | tex1D | tex2D | tex3D | cubemap | tex1DArray | tex2DArray | cubemapArray | rectangle | buffer
  | tex1DRw | tex2DRw | tex3DRw | tex1DArrayRw | tex2DArrayRw
deriving DecidableEq

/-- The type of one component of an image. -/
inductive BufferType where
  | ubyte | float
deriving DecidableEq

/-- The components of a pixel. -/
inductive PixelFormat where
  | alpha | gray | grayAlpha | rgb | bgr | rgba | bgra | depth
deriving DecidableEq

/-- How the graphics hardware stores a texture. -/
inductive HardwareFormat where
  | ubyte8 | float16 | float32 | int32 | uint32
deriving DecidableEq

/-- What lies beyond the edge of a texture. -/
inductive WrapMode where
  | «repeat» | mirror | clamp
deriving DecidableEq

/-- How a texture is sampled when it is drawn larger or smaller. -/
inductive SampleMode where
  | linear | smooth
deriving DecidableEq

/-- How the levels of a texture are sampled. -/
inductive MipMapFilter where
  | bilinear | trilinear | anisotropic
deriving DecidableEq

def TextureType.vocabulary : Vocabulary TextureType :=
  ⟨"texture type", .tex2D,
    [("tex1D", .tex1D), ("tex2D", .tex2D), ("tex3D", .tex3D), ("texCube", .cubemap),
      ("tex1DArray", .tex1DArray), ("tex2DArray", .tex2DArray), ("texCubeArray", .cubemapArray),
      ("texRect", .rectangle), ("texBuffer", .buffer), ("tex1DRW", .tex1DRw),
      ("tex2DRW", .tex2DRw), ("tex3DRW", .tex3DRw), ("tex1DArrayRW", .tex1DArrayRw),
      ("tex2DArrayRW", .tex2DArrayRw)]⟩

def BufferType.vocabulary : Vocabulary BufferType :=
  ⟨"image buffer type", .ubyte, [("ubyte", .ubyte), ("float", .float)]⟩

def PixelFormat.vocabulary : Vocabulary PixelFormat :=
  ⟨"pixel format", .rgba,
    [("alpha", .alpha), ("gray", .gray), ("grayAlpha", .grayAlpha), ("rgb", .rgb), ("bgr", .bgr),
      ("rgba", .rgba), ("bgra", .bgra), ("depthComponent", .depth)]⟩

def HardwareFormat.vocabulary : Vocabulary HardwareFormat :=
  ⟨"hardware texture format", .ubyte8,
    [("ubyte8", .ubyte8), ("float16", .float16), ("float32", .float32), ("int32", .int32),
      ("uint32", .uint32)]⟩

def WrapMode.vocabulary : Vocabulary WrapMode :=
  ⟨"texture wrap mode", .repeat, [("repeat", .repeat), ("mirror", .mirror), ("clamp", .clamp)]⟩

def SampleMode.vocabulary : Vocabulary SampleMode :=
  ⟨"texture filter", .smooth, [("linear", .linear), ("smooth", .smooth)]⟩

def MipMapFilter.vocabulary : Vocabulary MipMapFilter :=
  ⟨"MIP-map filter", .trilinear,
    [("bilinear", .bilinear), ("trilinear", .trilinear), ("anisotropic", .anisotropic)]⟩

/-- How a texture is sampled. -/
structure TextureFilter where
  mipMaps : Bool
  anisotropy : UInt32
  wrapX : WrapMode
  wrapY : WrapMode
  wrapZ : WrapMode
  min : SampleMode
  mag : SampleMode
  mip : MipMapFilter

namespace TextureFilter

/-- Sampling before the first line of a filter block. -/
def default : TextureFilter where
  mipMaps := true
  anisotropy := 0
  wrapX := .repeat
  wrapY := .repeat
  wrapZ := .repeat
  min := .smooth
  mag := .smooth
  mip := .trilinear

/-- Wraps all three axes alike. -/
def setWrap (mode : WrapMode) (f : TextureFilter) : TextureFilter :=
  { f with wrapX := mode, wrapY := mode, wrapZ := mode }

end TextureFilter

/-- What a texture is made from; without a file name it is created, not loaded. -/
structure TextureSettings where
  fileName : String
  type : TextureType
  bufferType : BufferType
  format : PixelFormat
  hardwareFormat : HardwareFormat
  width : Int32
  height : Int32
  depth : Int32
  filter : TextureFilter

namespace TextureSettings

/-- Settings before the first line of a texture block. -/
def default : TextureSettings where
  fileName := ""
  type := .tex2D
  bufferType := .ubyte
  format := .rgba
  hardwareFormat := .ubyte8
  width := 0
  height := 0
  depth := 1
  filter := .default

/-- Width and height are both given. -/
def hasSize (s : TextureSettings) : Bool := 0 < s.width && 0 < s.height

end TextureSettings

/-- What every pixel of a texture has been set to. -/
inductive TextureFill where
  | bytes (color : Color)
  | floats (components : List Float32)

/-- A texture a render system has made. -/
structure Texture where
  /-- The file the texture was loaded from. -/
  source : Option String
  settings : TextureSettings
  fill : Option TextureFill
  renderTarget : Bool
  colorKey : Option Color

namespace Texture

/-- A texture as it is right after loading or creation. -/
def ofSettings (source : Option String) (settings : TextureSettings) : Texture where
  source := source
  settings := settings
  fill := none
  renderTarget := false
  colorKey := none

def setFilter (filter : TextureFilter) (t : Texture) : Texture :=
  { t with settings := { t.settings with filter } }

def setFormat (format : PixelFormat) (t : Texture) : Texture :=
  { t with settings := { t.settings with format } }

def setHardwareFormat (hardwareFormat : HardwareFormat) (t : Texture) : Texture :=
  { t with settings := { t.settings with hardwareFormat } }

def setSize (width height : Int32) (t : Texture) : Texture :=
  { t with settings := { t.settings with width, height } }

def setType (type : TextureType) (depth : Int32) (t : Texture) : Texture :=
  { t with settings := { t.settings with type, depth } }

def setRenderTarget (renderTarget : Bool) (t : Texture) : Texture := { t with renderTarget }

def setColorKey (key : Color) (t : Texture) : Texture := { t with colorKey := some key }

def fillBytes (color : Color) (t : Texture) : Texture := { t with fill := some (.bytes color) }

def fillFloats (components : List Float32) (t : Texture) : Texture :=
  { t with fill := some (.floats components) }

end Texture

end MaterialScript
