/-
Drafts: what the block of a texture or of a shader stage has said so far.

There is one draft of each kind, kept with the scene. A texture block starts a
new texture draft; a stage block goes on with the stage draft as it is, which
is empty because closing a block takes it and a load starts with empty drafts.
A load that fails inside a block leaves its draft half filled.
-/
import MaterialScript.Resource.Shader
import MaterialScript.Resource.Texture

namespace MaterialScript

/-- What the block of a texture has said so far. -/
structure TextureDraft where
  settings : TextureSettings
  fillColor : Color
  colorKey : Color
  renderTarget : Bool

namespace TextureDraft

/-- A draft before the first line of a block. -/
def default : TextureDraft := ⟨.default, .white, .white, false⟩

/-- Changes the settings of a draft. -/
def change (f : TextureSettings → TextureSettings) (d : TextureDraft) : TextureDraft :=
  { d with settings := f d.settings }

/-- Changes how the texture is sampled. -/
def changeFilter (f : TextureFilter → TextureFilter) : TextureDraft → TextureDraft :=
  change fun s => { s with filter := f s.filter }

end TextureDraft

/-- What the block of a stage has said so far. -/
structure StageDraft where
  version : ShaderVersion
  source : List String

namespace StageDraft

/-- A draft before the first line of a block. -/
def empty : StageDraft := ⟨.unspecified, []⟩

/-- A stage has a version. -/
def hasVersion (d : StageDraft) : Bool := d.version != .unspecified

/-- The stage a finished draft describes. -/
def submitted (stage : ShaderType) (entryPoint : String) (d : StageDraft) : ShaderStage :=
  ⟨stage, d.version, d.source, entryPoint⟩

/-- Adds code at the end. -/
def add (code : List String) (d : StageDraft) : StageDraft := { d with source := d.source ++ code }

end StageDraft

/-- The drafts a load works on. -/
structure Drafts where
  texture : TextureDraft
  stage : StageDraft

/-- The drafts a load starts with. -/
def Drafts.empty : Drafts := ⟨.default, .empty⟩

end MaterialScript
