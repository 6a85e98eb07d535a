/-
The ways a load fails.

A fault says what went wrong; an error is a fault with the place of the token
it is about. Faults met outside any token (an unreadable file, a script that
holds nothing) have no place. Unknown keywords, variables and format names are
no faults: they are noted in the journal and reading goes on.
-/
import MaterialScript.Token

namespace MaterialScript

/-- The five kinds of resources a script declares. -/
inductive ResourceKind where
  | material
  | shader
  | vertexFormat
  | texture
  | textureLayer
deriving DecidableEq

/-- The noun messages use for a kind of resource. -/
def ResourceKind.noun : ResourceKind → String
  | material => "material"
  | shader => "shader"
  | vertexFormat => "vertex format"
  | texture => "texture"
  | textureLayer => "texture layer"

/-- The word that opens a declaration of this kind. -/
def ResourceKind.keyword : ResourceKind → String
  | material => "material"
  | shader => "shader"
  | vertexFormat => "vertexFormat"
  | texture => "texture"
  | textureLayer => "textureLayer"

/-- What ended a load. -/
inductive Fault where
  | unexpectedEndOfInput
  | unexpectedToken (found : String)
  | unexpectedIdentifier (name : String)
  | expectedIdentifier
  | expectedAssignment
  | expectedString
  | typeMismatch (detail : String)
  | emptyInitializer
  | duplicateDeclaration (kind : ResourceKind) (name : String)
  | unknownLayerType (name : String)
  | missingShaderVersion
  | invalidEntryPoint
  | reservedName (name : String)
  | textureLoad (path : String)
  | invalidTokenStream
  | unbalancedBracket (bracket : Char)
  | unterminatedString
  | unexpectedCharacter (character : Char)
  | invalidNumber (text : String)
  | fileRead (path reason : String)
deriving DecidableEq

/-- The message of a fault, without a place. -/
def Fault.message : Fault → String
  | unexpectedEndOfInput => "unexpected end-of-file"
  | unexpectedToken found => "unexpected " ++ found
  | unexpectedIdentifier name => "unexpected identifier named \"" ++ name ++ "\""
  | expectedIdentifier => "expected identifier"
  | expectedAssignment => "expected assignment character"
  | expectedString => "expected string or string variable"
  | typeMismatch detail => "type mismatch: " ++ detail
  | emptyInitializer => "variable definition without initialization"
  | duplicateDeclaration kind name =>
    "multiple definition of " ++ kind.noun ++ " named \"" ++ name ++ "\""
  | unknownLayerType name => "unknown texture layer type named \"" ++ name ++ "\""
  | missingShaderVersion => "no shader version specified"
  | invalidEntryPoint => "invalid shader entry point"
  | reservedName name =>
    "reserved vertex format name \"" ++ name ++ "\" (may not begin with 'vertexFormat')"
  | textureLoad path => "failed loading texture from \"" ++ path ++ "\""
  | invalidTokenStream => "invalid token stream"
  | unbalancedBracket bracket => "unbalanced bracket '" ++ bracket.toString ++ "'"
  | unterminatedString => "unterminated string"
  | unexpectedCharacter character => "unexpected character '" ++ character.toString ++ "'"
  | invalidNumber text => "invalid number \"" ++ text ++ "\""
  | fileRead path reason => "failed reading file \"" ++ path ++ "\": " ++ reason

/-- A fault and, where known, the line and column it is about. -/
structure ScriptError where
  fault : Fault
  line : Option Nat
  column : Option Nat
deriving DecidableEq

namespace ScriptError

/-- An error without a place. -/
def unplaced (fault : Fault) : ScriptError := ⟨fault, none, none⟩

/-- An error at a place. -/
def placed (p : Position) (fault : Fault) : ScriptError := ⟨fault, some p.row, some p.column⟩

/-- The fault's message, followed by the place when line and column are both known. -/
def message (e : ScriptError) : String :=
  match e.line, e.column with
  | some line, some column => e.fault.message ++ " at " ++ (Position.mk line column).render
  | _, _ => e.fault.message

end ScriptError

end MaterialScript
