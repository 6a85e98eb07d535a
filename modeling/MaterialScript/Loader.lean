/-
Loading scripts, one after another.

A loader keeps what the last load built until the next load begins, also when
the load failed. Variables defined by the host are bound anew at the start of
every load, together with the working directory.
-/
import MaterialScript.Brackets
import MaterialScript.Grammar.Script
import MaterialScript.Source.Tokens

namespace MaterialScript

/-- The state of a host that loads scripts with the render system `σ`. -/
structure Loader (σ : Type) where
  system : σ
  /-- The value of the variable `workingDir`; ends in a slash. -/
  workingDirectory : String
  /-- Variables defined by the host, in the order of their definition. -/
  definitions : List (String × Value)
  bindings : Variables
  journal : Journal
  resources : Resources
  /-- What the blocks open at the end of the last load had said. -/
  drafts : Drafts
  /-- The error that ended the last load, where the host asked to keep it. -/
  lastError : Option ScriptError
  /-- Shader files the last load read, in order. -/
  requested : List String

namespace Loader

variable {σ : Type}

/-- The name of the variable that holds the working directory. -/
def workingDirectoryName : String := "workingDir"

/-- A directory with a slash at its end. -/
def withSlash (directory : String) : String :=
  if directory.toList.getLast? = some '/' then directory else directory ++ "/"

/-- A loader that has not loaded anything. -/
def new (system : σ) (directory : String) : Loader σ where
  system := system
  workingDirectory := withSlash directory
  definitions := []
  bindings := .empty
  journal := []
  resources := .empty
  drafts := .empty
  lastError := none
  requested := []

/-- Adds notices to the journal. -/
def note (l : Loader σ) (notices : Journal) : Loader σ :=
  { l with journal := l.journal ++ notices }

/-- Binds a variable for this and every later load; a name that the host has defined before, or that
is bound already, stays as it is, and an error is noted. -/
def define (l : Loader σ) (name : String) (value : Value) : Bool × Loader σ :=
  if l.definitions.any fun (n, _) => n == name then (false, l.note [Variables.taken name])
  else
    match l.bindings.define? name value with
    | some bindings => (true, { l with bindings, definitions := l.definitions ++ [(name, value)] })
    | none => (false, l.note [Variables.taken name])

/-- The variables every load starts with. -/
def initialVariables (l : Loader σ) : Variables :=
  l.definitions.foldl (fun vars (name, value) => vars.set name value)
    (Variables.empty.set workingDirectoryName (.text l.workingDirectory))

/-- Forgets what the last load left. -/
def begin (l : Loader σ) : Loader σ :=
  { l with
    bindings := l.initialVariables
    journal := []
    resources := .empty
    drafts := .empty
    lastError := none
    requested := [] }

/-- "1 material", "3 materials"; nothing for none. -/
def countLabel? (count : Nat) (noun : String) : Option String :=
  match count with
  | 0 => none
  | 1 => some ("1 " ++ noun)
  | count => some (toString count ++ " " ++ noun ++ "s")

/-- Tells how many resources of each kind there are, if there are any. -/
def summary (r : Resources) : Journal :=
  let kinds : List ResourceKind := [.material, .shader, .vertexFormat, .texture, .textureLayer]
  match kinds.filterMap fun kind => countLabel? (r.count kind) kind.noun with
  | [] => []
  | labels => [.info ("Created " ++ ", ".intercalate labels)]

/-- The state in which a parser starts on a token sequence. -/
def start (l : Loader σ) (files : Files) (tokens : List Token) : Parser.State (Scene σ) where
  cursor := .ofTokens tokens
  bindings := l.bindings
  journal := l.journal
  scene :=
    { l.resources with
      system := l.system
      drafts := l.drafts
      files
      requested := l.requested }

/-- Takes over what a parser has left. -/
def absorb (l : Loader σ) (s : Parser.State (Scene σ)) : Loader σ :=
  { l with
    system := s.scene.system
    bindings := s.bindings
    journal := s.journal
    resources := s.scene.toResources
    drafts := s.scene.drafts
    requested := s.scene.requested }

/-- A script holds something besides whitespace. -/
def declaresNothing (tokens : List Token) : Bool :=
  tokens.all fun t => t.kind.isWhitespace || t.isEndOfFile

variable [RenderSystem σ]

/-- Reads what is left of a script, takes over what it has built and tells of it. -/
def readFrom (l : Loader σ) (s : Parser.State (Scene σ)) : Except ScriptError Unit × Loader σ :=
  match Parser.script.run s with
  | (.error e, s) => (.error e, l.absorb s)
  | (.ok (), s) =>
    let l := l.absorb s
    (.ok (), l.note (summary l.resources))

/-- Reads a token sequence into a loader that has begun. -/
def readOn (l : Loader σ) (files : Files) (tokens : List Token) :
    Except ScriptError Unit × Loader σ :=
  if declaresNothing tokens then (.error (.unplaced .invalidTokenStream), l)
  else
    match Brackets.check tokens with
    | .error e => (.error e, l)
    | .ok () => l.readFrom (l.start files tokens)

/-- What a reading that succeeds has done. -/
theorem readOn_eq_ok {l l' : Loader σ} {files : Files} {tokens : List Token}
    (h : l.readOn files tokens = (.ok (), l')) :
    declaresNothing tokens = false ∧ Brackets.check tokens = .ok () ∧
      ∃ s, Parser.script.run (l.start files tokens) = (.ok (), s) ∧
        l' = (l.absorb s).note (summary s.scene.toResources) := by
  unfold readOn at h
  split at h
  · cases h
  rename_i hsomething
  refine ⟨by simpa using hsomething, ?_⟩
  split at h
  · cases h
  · rename_i hcheck
    unfold readFrom at h
    split at h
    · cases h
    · rename_i s hrun
      cases h
      exact ⟨hcheck, s, hrun, rfl⟩

/-- Reads a text into a loader that has begun. -/
def readTextOn (l : Loader σ) (files : Files) (source : String) :
    Except ScriptError Unit × Loader σ :=
  match Source.tokens source with
  | .error e => (.error e, l)
  | .ok tokens => l.readOn files tokens

/-- Loads a token sequence. -/
def readTokens (l : Loader σ) (files : Files) (tokens : List Token) :
    Except ScriptError Unit × Loader σ :=
  l.begin.readOn files tokens

/-- Loads a script from its text. -/
def readSource (l : Loader σ) (files : Files) (source : String) :
    Except ScriptError Unit × Loader σ :=
  l.begin.readTextOn files source

/-- Tells that a script is being loaded. -/
def announcement (path : String) : Notice := .info ("Load material script: \"" ++ path ++ "\"")

/-- Loads a script from a file. -/
def readScript (l : Loader σ) (files : Files) (path : String) :
    Except ScriptError Unit × Loader σ :=
  let l := { l.begin with journal := [announcement path] }
  match files path with
  | .error fault => (.error (.unplaced (.fileRead path fault.message)), l)
  | .ok source => l.readTextOn files source

/-- Notes and keeps the error of a failed load; tells whether the load succeeded. -/
def conclude : Except ScriptError Unit × Loader σ → Bool × Loader σ
  | (.ok (), l) => (true, l)
  | (.error e, l) =>
    (false, { l.note [Notice.error e.message] with lastError := some e })

/-- Loads a script from its text; see `conclude`. -/
def loadSource (l : Loader σ) (files : Files) (source : String) : Bool × Loader σ :=
  conclude (l.readSource files source)

/-- Loads a script from a file; see `conclude`. -/
def loadScript (l : Loader σ) (files : Files) (path : String) : Bool × Loader σ :=
  conclude (l.readScript files path)

/-- The vertex format of this name: builtin for a reserved name, else as declared. -/
def vertexFormat? (l : Loader σ) (name : String) : Option VertexFormat :=
  match BuiltinFormat.ofName? name with
  | some format => some (RenderSystem.builtinFormat l.system format)
  | none => l.resources.vertexFormats.get? name

end Loader

end MaterialScript
