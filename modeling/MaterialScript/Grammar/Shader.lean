/-
Shader declarations: `shader "name" format { dialect { stage { ... } } }`.

Only the dialect of the render system is read; other dialects are skipped. The
lines of a stage are collected in a draft; the stage is submitted when its
block is closed, a shader is compiled when its dialect is closed.
-/
import MaterialScript.Grammar.Declaration
import MaterialScript.Text.Lines

namespace MaterialScript

variable {σ : Type}

/-- The code in a file: one piece per line, each closed by a line feed. -/
def StageDraft.codeOfFile (text : String) : List String := (Text.linesOf text).map (· ++ "\n")

namespace Scene

/-- The layout a shader's header names: a builtin format, or one declared before. -/
def layoutNamed? (name : String) (s : Scene σ) : Option InputLayout :=
  match BuiltinFormat.ofName? name with
  | some format => some (.builtin format)
  | none => (s.vertexFormats.get? name).map .declared

/-- Adds a shader, which becomes the current one. -/
def addShader [RenderSystem σ] (name : String) (layout : Option InputLayout) (s : Scene σ) :
    Scene σ :=
  let (shader, system) := RenderSystem.makeShader layout s.system
  { s with system, shaders := s.shaders.insert name shader }

/-- Hands the current shader to a compiler; tells whether that succeeded. -/
def compileWith (compiler : Shader → σ → Bool × Shader × σ) (s : Scene σ) :
    Bool × Scene σ :=
  match s.shaders.current? with
  | none => (false, s)
  | some (_, shader) =>
    let (compiled, shader, system) := compiler shader s.system
    (compiled, { s with system, shaders := s.shaders.modifyCurrent fun _ => shader })

/-- Compiles a stage into the current shader. -/
def compileStage [RenderSystem σ] (stage : ShaderStage) : Scene σ → Bool × Scene σ :=
  compileWith fun shader => RenderSystem.compileStage shader stage

/-- Links the stages of the current shader. -/
def compileShader [RenderSystem σ] : Scene σ → Bool × Scene σ :=
  compileWith RenderSystem.compileShader

/-- The name of the current shader. -/
def currentShaderName (s : Scene σ) : String := (s.shaders.current?.map (·.1)).getD ""

/-- Changes the stage draft. -/
def changeStage (change : StageDraft → StageDraft) (s : Scene σ) : Scene σ :=
  { s with drafts := { s.drafts with stage := change s.drafts.stage } }

/-- The finished stage draft; an empty one takes its place. -/
def takeStage (s : Scene σ) : StageDraft × Scene σ :=
  (s.drafts.stage, s.changeStage fun _ => .empty)

/-- Reads a shader file. -/
def readFile (path : String) (s : Scene σ) : Except FileFault String × Scene σ :=
  (s.files path, { s with requested := s.requested ++ [path] })

end Scene

namespace Parser

/-- Refuses a line of code before a version is given. -/
def requireVersion (t : Token) : Parser (Scene σ) Unit := do
  failIf (!(← inspect (·.drafts.stage.hasVersion))) t .missingShaderVersion

/-- The code in the file that a line names; a file that cannot be read has none. -/
def codeFromFile : Parser (Scene σ) (List String) := do
  let path ← text
  match ← build (Scene.readFile path) with
  | .ok content => return StageDraft.codeOfFile content
  | .error fault =>
    note [.error ("Could not read shader file \"" ++ path ++ "\": " ++ fault.message)]
    return []

/-- A line of a stage block. -/
def stageLine (_ : Unit) (t : Token) : Parser (Scene σ) Unit :=
  match t.text with
  | "version" => do
    let version ← keyword ShaderVersion.vocabulary
    modify (Scene.changeStage ({ · with version }))
  | "source" => do
    requireVersion t
    modify (Scene.changeStage (.add [← text]))
  | "sourceFile" => do
    requireVersion t
    modify (Scene.changeStage (.add (← codeFromFile)))
  | _ => unexpectedName t

/-- The header of a stage block, up to and with the opening brace; answers the entry point. -/
def stageHeader (stage : ShaderType) : Parser (Scene σ) String := do
  let t ← next
  if t.isSymbol .leftBrace then return stage.defaultEntryPoint
  else if t.kind = .string ∧ t.text ≠ "" then
    expect .leftBrace
    return t.text
  else failAt t .invalidEntryPoint

/-- Submits the stage whose block has just been closed. -/
def finishStage [RenderSystem σ] (stage : ShaderType) (entryPoint : String) :
    Parser (Scene σ) Unit := do
  let close ← current
  let draft ← build Scene.takeStage
  if !draft.hasVersion then failAt close .missingShaderVersion
  else if draft.source.isEmpty then note [.warning "Empty shader code"]
  else
    let compiled ← build (Scene.compileStage (draft.submitted stage entryPoint))
    noteIf (!compiled) [.warning ("Compiling " ++ stage.label ++ " shader stage failed")]

/-- A stage block, opened by the word for its stage. -/
def stageBlock [RenderSystem σ] (_ : Unit) (t : Token) : Parser (Scene σ) Unit :=
  match ShaderType.vocabulary.find? t.text with
  | none => unexpectedName t
  | some stage => do
    let entryPoint ← stageHeader stage
    blockBody stageLine ()
    finishStage stage entryPoint

/-- Skips the block of a dialect that is not the render system's. -/
def foreignDialect (dialect : ShaderDialect) : Parser (Scene σ) Unit := do
  note [.info ("Skip " ++ dialect.keyword ++ " shader code for this render system")]
  skipBlock

/-- Links the shader whose dialect block has just been closed. -/
def finishDialect [RenderSystem σ] : Parser (Scene σ) Unit := do
  let compiled ← build Scene.compileShader
  let name ← inspect Scene.currentShaderName
  noteIf (!compiled) [.warning ("Compiling shader class \"" ++ name ++ "\" failed")]

/-- A dialect block, opened by the word for its dialect. -/
def dialectBlock [RenderSystem σ] (_ : Unit) (t : Token) : Parser (Scene σ) Unit :=
  match ShaderDialect.ofKeyword? t.text with
  | none => unexpectedName t
  | some dialect => do
    let backend ← inspect fun s => RenderSystem.backend s.system
    if backend.dialect? ≠ some dialect then foreignDialect dialect
    else
      block stageBlock ()
      finishDialect

/-- The vertex format in a shader's header, up to and with the opening brace. -/
def inputLayout : Parser (Scene σ) (Option InputLayout) := do
  let t ← next
  match t.kind with
  | .symbol .leftBrace => return none
  | .name =>
    let layout ← inspect (Scene.layoutNamed? t.text)
    noteIf layout.isNone [.warning ("Unknown vertex format named \"" ++ t.text ++ "\"")]
    expect .leftBrace
    return layout
  | _ => unexpected t

/-- The rest of a shader's header after its name, up to and with the opening brace. -/
def shaderHeader [RenderSystem σ] (name : Token) : Parser (Scene σ) Unit := do
  refuseDuplicate .shader name
  let layout ← inputLayout
  modify (Scene.addShader name.text layout)

/-- Skips a shader declaration after its name. -/
def unsupportedShader (name : Token) : Parser (Scene σ) Unit := do
  note [.error ("Can not create shader class \"" ++ name.text
    ++ "\" because shaders are not supported by this render system")]
  skipBlock

/-- A shader declaration whose keyword has just been read. -/
def shader [RenderSystem σ] : Parser (Scene σ) Unit := do
  let name ← declaredName
  if !(← inspect fun s => RenderSystem.supportsShaders s.system) then unsupportedShader name
  else
    shaderHeader name
    blockBody dialectBlock ()

end Parser

end MaterialScript
