/-
Shaders: stages of code in the one dialect a render system understands.
-/
import MaterialScript.Resource.VertexFormat

namespace MaterialScript

/-- A stage of the shader pipeline; `unspecified` stands for a stage that is not known. -/
inductive ShaderType where
  | vertexProgram | pixelProgram | vertex | pixel | geometry | hull | domain | compute
  | unspecified
deriving DecidableEq

/-- The language version a stage is written for; `unspecified` before one is given. -/
inductive ShaderVersion where
  | unspecified
  | glsl120 | glsl130 | glsl140 | glsl150 | glsl330 | glsl400 | glsl410 | glsl420 | glsl430
  | vs1_0 | vs2_0 | vs2a | vs3_0 | vs4_0 | vs4_1 | vs5_0
  | ps1_0 | ps1_1 | ps1_2 | ps1_3 | ps1_4 | ps2_0 | ps2a | ps2b | ps3_0 | ps4_0 | ps4_1 | ps5_0
  | gs4_0 | gs4_1 | gs5_0
  | cs4_0 | cs4_1 | cs5_0
  | hs5_0 | ds5_0 | cg2_0
deriving DecidableEq

def ShaderType.vocabulary : Vocabulary ShaderType :=
  ⟨"shader type", .unspecified,
    [("vertexAsm", .vertexProgram), ("pixelAsm", .pixelProgram), ("vertex", .vertex),
      ("pixel", .pixel), ("geometry", .geometry), ("hull", .hull), ("domain", .domain),
      ("compute", .compute)]⟩

def ShaderVersion.vocabulary : Vocabulary ShaderVersion :=
  ⟨"shader version", .unspecified,
    [("std120", .glsl120), ("std130", .glsl130), ("std140", .glsl140), ("std150", .glsl150),
      ("std330", .glsl330), ("std400", .glsl400), ("std410", .glsl410), ("std420", .glsl420),
      ("std430", .glsl430),
      ("vs_1_0", .vs1_0), ("vs_2_0", .vs2_0), ("vs_2_a", .vs2a), ("vs_3_0", .vs3_0),
      ("vs_4_0", .vs4_0), ("vs_4_1", .vs4_1), ("vs_5_0", .vs5_0),
      ("ps_1_0", .ps1_0), ("ps_1_1", .ps1_1), ("ps_1_2", .ps1_2), ("ps_1_3", .ps1_3),
      ("ps_1_4", .ps1_4), ("ps_2_0", .ps2_0), ("ps_2_a", .ps2a), ("ps_2_b", .ps2b),
      ("ps_3_0", .ps3_0), ("ps_4_0", .ps4_0), ("ps_4_1", .ps4_1), ("ps_5_0", .ps5_0),
      ("gs_4_0", .gs4_0), ("gs_4_1", .gs4_1), ("gs_5_0", .gs5_0),
      ("cs_4_0", .cs4_0), ("cs_4_1", .cs4_1), ("cs_5_0", .cs5_0),
      ("hs_5_0", .hs5_0), ("ds_5_0", .ds5_0), ("cg_2_0", .cg2_0)]⟩

namespace ShaderType

/-- The function a stage starts with when its block names none; assembly programs have none. -/
def defaultEntryPoint : ShaderType → String
  | vertex => "VertexMain"
  | pixel => "PixelMain"
  | geometry => "GeometryMain"
  | hull => "HullMain"
  | domain => "DomainMain"
  | compute => "ComputeMain"
  | vertexProgram | pixelProgram | unspecified => ""

/-- How messages name a stage. -/
def label : ShaderType → String
  | vertexProgram => "VertexProgram"
  | pixelProgram => "PixelProgram"
  | vertex => "Vertex"
  | pixel => "Pixel"
  | geometry => "Geometry"
  | hull => "Hull"
  | domain => "Domain"
  | compute => "Compute"
  | unspecified => "Unspecified"

end ShaderType

/-- A dialect of shader code. -/
inductive ShaderDialect where
  | glsl | glslEs | hlsl3 | hlsl5
deriving DecidableEq

namespace ShaderDialect

/-- The word a dialect block is headed with. -/
def keyword : ShaderDialect → String
  | glsl => "glsl"
  | glslEs => "glslEs"
  | hlsl3 => "hlsl3"
  | hlsl5 => "hlsl5"

/-- The dialect a block is headed with. -/
def ofKeyword? : String → Option ShaderDialect
  | "glsl" => some glsl
  | "glslEs" => some glslEs
  | "hlsl3" => some hlsl3
  | "hlsl5" => some hlsl5
  | _ => none

end ShaderDialect

/-- What a render system draws with. -/
inductive Backend where
  | openGl | openGlEs2 | direct3D9 | direct3D11 | none
deriving DecidableEq

namespace Backend

/-- The one dialect a backend understands; without a renderer there is none. -/
def dialect? : Backend → Option ShaderDialect
  | openGl => some .glsl
  | openGlEs2 => some .glslEs
  | direct3D9 => some .hlsl3
  | direct3D11 => some .hlsl5
  | none => Option.none

/-- How messages name a backend. -/
def label : Backend → String
  | openGl => "OpenGl"
  | openGlEs2 => "OpenGlEs2"
  | direct3D9 => "Direct3D9"
  | direct3D11 => "Direct3D11"
  | none => "None"

end Backend

/-- A stage submitted for compilation. -/
structure ShaderStage where
  stage : ShaderType
  version : ShaderVersion
  source : List String
  entryPoint : String

/-- A shader a render system has made. -/
structure Shader where
  /-- The vertex format the shader reads. -/
  inputLayout : Option VertexFormat
  stages : List ShaderStage
  compiled : Bool

/-- A shader before its first stage. -/
def Shader.ofLayout (inputLayout : Option VertexFormat) : Shader := ⟨inputLayout, [], false⟩

end MaterialScript
