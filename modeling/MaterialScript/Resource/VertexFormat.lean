/-
Vertex formats: ordered lists of vertex attributes.

Every render system provides four formats of its own; scripts refer to them by
reserved names and cannot declare a format whose name starts like theirs.
-/
import MaterialScript.Vocabulary

namespace MaterialScript

/-- The type of one component of an attribute. -/
inductive DataType where
  | float | double | byte | short | int | unsignedByte | unsignedShort | unsignedInt
deriving DecidableEq

/-- What an attribute means to a shader. -/
inductive VertexFlag where
  | coord | color | normal | binormal | tangent | fogCoord | texCoords | universal
deriving DecidableEq

/-- The part an attribute plays in a vertex. -/
inductive AttributeKind where
  | coord | color | normal | binormal | tangent | texCoord | fogCoord | universal
deriving DecidableEq

def DataType.vocabulary : Vocabulary DataType :=
  ⟨"data type", .float,
    [("float", .float), ("double", .double), ("byte", .byte), ("short", .short), ("int", .int),
      ("ubyte", .unsignedByte), ("ushort", .unsignedShort), ("uint", .unsignedInt)]⟩

def VertexFlag.vocabulary : Vocabulary VertexFlag :=
  ⟨"vertex flag", .universal,
    [("coord", .coord), ("color", .color), ("normal", .normal), ("binormal", .binormal),
      ("tangent", .tangent), ("fogCoord", .fogCoord), ("texCoord", .texCoords),
      ("universal", .universal)]⟩

namespace AttributeKind

/-- The kind a block of a format is headed with. -/
def ofKeyword? : String → Option AttributeKind
  | "coord" => some coord
  | "color" => some color
  | "normal" => some normal
  | "binormal" => some binormal
  | "tangent" => some tangent
  | "texCoord" => some texCoord
  | "fogCoord" => some fogCoord
  | "universal" => some universal
  | _ => none

/-- The component type and the number of components an attribute starts with. -/
def defaultLayout : AttributeKind → DataType × UInt32
  | color => (.unsignedByte, 4)
  | texCoord => (.float, 2)
  | _ => (.float, 3)

end AttributeKind

/-- One attribute of a vertex. -/
structure VertexAttribute where
  kind : AttributeKind
  /-- The name a shader knows it by; only universal attributes have one. -/
  name : String
  dataType : DataType
  size : UInt32
  normalize : Bool
  flag : VertexFlag

/-- An attribute before the first line of its block. -/
def VertexAttribute.ofKind (kind : AttributeKind) : VertexAttribute where
  kind := kind
  name := ""
  dataType := kind.defaultLayout.1
  size := kind.defaultLayout.2
  normalize := false
  flag := .universal

/-- The attributes of a vertex in order. -/
structure VertexFormat where
  attributes : List VertexAttribute

/-- The formats every render system provides. -/
inductive BuiltinFormat where
  | default | reduced | extended | full
deriving DecidableEq

namespace BuiltinFormat

/-- The reserved name of a builtin format. -/
def name : BuiltinFormat → String
  | default => "vertexFormatDefault"
  | reduced => "vertexFormatReduced"
  | extended => "vertexFormatExtended"
  | full => "vertexFormatFull"

/-- The builtin format of a reserved name. -/
def ofName? : String → Option BuiltinFormat
  | "vertexFormatDefault" => some default
  | "vertexFormatReduced" => some reduced
  | "vertexFormatExtended" => some extended
  | "vertexFormatFull" => some full
  | _ => none

/-- The attributes of a builtin format. -/
def kinds : BuiltinFormat → List AttributeKind
  | default => [.coord, .color, .normal, .texCoord]
  | reduced => [.coord, .normal, .texCoord]
  | extended => [.coord, .color, .normal, .texCoord, .texCoord, .fogCoord]
  | full =>
    [.coord, .color, .normal, .binormal, .tangent, .texCoord, .texCoord, .texCoord, .texCoord,
      .fogCoord]

/-- How the names of builtin formats start. -/
def reserved : String := "vertexFormat"

end BuiltinFormat

namespace VertexFormat

def empty : VertexFormat := ⟨[]⟩

/-- A format of attributes with their default layouts. -/
def ofKinds (kinds : List AttributeKind) : VertexFormat := ⟨kinds.map .ofKind⟩

/-- The attributes of a builtin format, each with its default layout. -/
def builtin (format : BuiltinFormat) : VertexFormat := ofKinds format.kinds

/-- The format with one more attribute at its end. -/
def push (format : VertexFormat) (a : VertexAttribute) : VertexFormat :=
  ⟨format.attributes ++ [a]⟩

/-- The first attribute of a kind. -/
def find? (format : VertexFormat) (kind : AttributeKind) : Option VertexAttribute :=
  format.attributes.find? (·.kind == kind)

def size (format : VertexFormat) : Nat := format.attributes.length

def isEmpty (format : VertexFormat) : Bool := format.attributes.isEmpty

end VertexFormat

end MaterialScript
