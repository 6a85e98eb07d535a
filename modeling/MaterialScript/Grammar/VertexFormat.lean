/-
Vertex format declarations: `vertexFormat "name" { coord { ... } ... }`.
-/
import MaterialScript.Grammar.Declaration

namespace MaterialScript

variable {σ : Type}

/-- The lines of an attribute block. -/
def VertexAttribute.attributes : Attributes VertexAttribute :=
  [("size", .number fun v a => { a with size := v.toUInt32 }),
    ("type", .ofVocabulary DataType.vocabulary fun v a => { a with dataType := v }),
    ("normalize", .flag fun b a => { a with normalize := b }),
    ("attribute", .ofVocabulary VertexFlag.vocabulary fun v a => { a with flag := v })]

namespace Scene

/-- Adds a vertex format, which becomes the current one. -/
def addVertexFormat [RenderSystem σ] (name : String) (s : Scene σ) : Scene σ :=
  let (format, system) := RenderSystem.makeVertexFormat s.system
  { s with system, vertexFormats := s.vertexFormats.insert name format }

/-- Changes the current vertex format. -/
def changeVertexFormat (change : VertexFormat → VertexFormat) (s : Scene σ) : Scene σ :=
  { s with vertexFormats := s.vertexFormats.modifyCurrent change }

end Scene

namespace Parser

/-- A line of an attribute block. -/
def componentLine (a : VertexAttribute) (t : Token) : Parser (Scene σ) VertexAttribute := do
  return (← Attribute.readLine VertexAttribute.attributes t) a

/-- The quoted name of a universal attribute, which is not empty. -/
def attributeName : Parser (Scene σ) String := do
  let t ← next
  if t.kind = .string ∧ t.text ≠ "" then return t.text else failAt t .expectedString

/-- The name in the header of an attribute block, which only a universal attribute has. -/
def headerName (kind : AttributeKind) : Parser (Scene σ) String :=
  if kind = .universal then attributeName else pure ""

/-- The header of an attribute block, up to and with the opening brace. -/
def attributeHeader (kind : AttributeKind) : Parser (Scene σ) VertexAttribute := do
  let name ← headerName kind
  expect .leftBrace
  return { VertexAttribute.ofKind kind with name }

/-- An attribute block; the attribute joins the format when its block is closed. -/
def attributeBlock (_ : Unit) (t : Token) : Parser (Scene σ) Unit :=
  match AttributeKind.ofKeyword? t.text with
  | none => unexpectedName t
  | some kind => do
    let a ← blockBody componentLine (← attributeHeader kind)
    modify (Scene.changeVertexFormat (·.push a))

/-- The header of a vertex format declaration, up to and with the opening brace; answers the
name. -/
def vertexFormatHeader [RenderSystem σ] : Parser (Scene σ) String := do
  let name ← declaredName
  failIf (BuiltinFormat.reserved.toList.isPrefixOf name.text.toList) name (.reservedName name.text)
  refuseDuplicate .vertexFormat name
  expect .leftBrace
  modify (Scene.addVertexFormat name.text)
  return name.text

/-- A vertex format declaration whose keyword has just been read. -/
def vertexFormat [RenderSystem σ] : Parser (Scene σ) Unit := do
  let _ ← vertexFormatHeader
  blockBody attributeBlock ()

end Parser

end MaterialScript
