/-
The program that loads a script and lists what it declares.

Resources go to standard output; log lines and the report of an error go to
standard error. The dialect of the render system is chosen by an option, else
by an environment variable, else it is the first one.
-/
import MaterialScript.CommandLine.Arguments
import MaterialScript.CommandLine.Outcome
import MaterialScript.Host.Basic
import MaterialScript.Loader
import MaterialScript.RenderSystem.Recorder
import MaterialScript.Report.Excerpt
import MaterialScript.Report.Inventory
import MaterialScript.Report.Log

namespace MaterialScript.CommandLine.Inspect

/-- The options of the program. -/
def known : List KnownOption :=
  [.setting "backend" (some 'b'), .flag "no-shaders" none, .list "define" (some 'D'),
    .setting "working-dir" none, .flag "verbose" (some 'v'), .flag "quiet" (some 'q'),
    .flag "help" (some 'h'), .flag "version" (some 'V')]

/-- What the program tells about its options. -/
def usage : String :=
  "Usage: matscript [OPTIONS] <SCRIPT>\n\n"
    ++ "  -b, --backend <BACKEND>      glsl, glsl-es, hlsl3, hlsl5 or none\n"
    ++ "      --no-shaders             Pretend the render system has no shader support\n"
    ++ "  -D, --define <NAME=VALUE>    Predefine a variable\n"
    ++ "      --working-dir <DIR>      Value of @workingDir\n"
    ++ "  -v, --verbose                Show info diagnostics too\n"
    ++ "  -q, --quiet                  Show errors only\n"

/-- The environment variable consulted when no backend is given. -/
def backendVariable : String := "MATSCRIPT_BACKEND"

/-- The words for backends. -/
def backendOfWord? : String → Option Backend
  | "glsl" => some .openGl
  | "glsl-es" => some .openGlEs2
  | "hlsl3" => some .direct3D9
  | "hlsl5" => some .direct3D11
  | "none" => some .none
  | _ => none

/-- The same word with its letters in lower case, ASCII letters only. -/
def asciiLower (word : String) : String := String.ofList (word.toList.map Char.toLower)

/-- Splits `NAME=VALUE` at the first equals sign; the name is not empty. -/
def splitDefinition? (s : String) : Option (String × String) :=
  match s.toList.takeWhile (· != '='), s.toList.dropWhile (· != '=') with
  | [], _ => none
  | _, [] => none
  | name, _ :: value => some (String.ofList name, String.ofList value)

/-- What the arguments ask for. -/
structure Request where
  script : String
  backend : Option Backend
  shaders : Bool
  definitions : List (String × String)
  workingDirectory : Option String
  /-- The least severity that is logged. -/
  logged : Severity

/-- The one text that is asked for, which is not empty. -/
def onlyText? : List String → Option String
  | [s] => if s = "" then none else some s
  | _ => none

/-- Reads the arguments; `none` if they are refused. -/
def Request.ofArguments? (arguments : List Argument) : Option Request := do
  let script ← onlyText? (texts arguments)
  let backends ← (valuesOf "backend" arguments).mapM backendOfWord?
  let definitions ← (valuesOf "define" arguments).mapM splitDefinition?
  let quiet := isGiven "quiet" arguments
  let verbose := isGiven "verbose" arguments
  if quiet && verbose then none
  else
    return {
      script
      backend := backends.head?
      shaders := !isGiven "no-shaders" arguments
      definitions
      workingDirectory := (valuesOf "working-dir" arguments).head?
      logged := if quiet then .error else if verbose then .info else .warning }

/-- The backend asked for, else the one the environment names, else the first. -/
def chooseBackend (asked : Option Backend) (environment : Option String) : Except String Backend :=
  match asked, environment with
  | some backend, _ => .ok backend
  | none, none => .ok .openGl
  | none, some word =>
    match backendOfWord? (asciiLower word) with
    | some backend => .ok backend
    | none => .error ("Unknown backend '" ++ word ++ "' in " ++ backendVariable)

/-- A text that reads as a number is a number, any other a string. -/
def valueOf (text : String) : Value :=
  match Decimal.read? text with
  | some v => .number v
  | none => .text text

/-- Defines variables one after another, up to a name that is defined already. -/
def defineAll (l : Loader Recorder) :
    List (String × String) → Except (String × Loader Recorder) (Loader Recorder)
  | [] => .ok l
  | (name, text) :: more =>
    match l.define name (valueOf text) with
    | (true, l) => defineAll l more
    | (false, l) => .error (name, l)

/-- Loads a script that has been read, and reports. -/
def report (request : Request) (log : String) (l : Loader Recorder) (files : Files)
    (source : String) : Outcome :=
  match l.readSource files source with
  | (.error e, l) =>
    ⟨1, "", log ++ Report.log request.logged l.journal
      ++ StyledLine.renderAll (Report.scriptError "Script error" source e)⟩
  | (.ok (), l) =>
    .success (StyledLine.renderAll (Report.inventory l.resources))
      (log ++ Report.log request.logged l.journal)

variable {m : Type → Type} [Monad m] [Host m]

/-- Loads the script of a request whose backend is known. -/
def load (request : Request) (backend : Backend) (source : String) : m Outcome := do
  let log := Report.log request.logged
  let recorder := Recorder.ofBackend backend
  let recorder := if request.shaders then recorder else recorder.withoutShaders
  let directory ←
    match request.workingDirectory with
    | some directory => pure directory
    | none => Host.currentDirectory
  let started := log [.info ("Render system backend: " ++ backend.label)]
  match defineAll (.new recorder directory) request.definitions with
  | .error (name, l) =>
    return .failure 1 "" (started ++ log l.journal)
      ("Variable \"" ++ name ++ "\" is defined more than once")
  | .ok l =>
    let files ← Host.filesFor source fun files => (l.readSource files source).2.requested
    return report request (started ++ log [Loader.announcement request.script]) l files source

/-- Runs a request. -/
def perform (request : Request) (environment : Option String) : m Outcome := do
  match chooseBackend request.backend environment with
  | .error message => return .failure 1 "" "" message
  | .ok backend =>
    let started := Report.log request.logged [.info ("Render system backend: " ++ backend.label)]
    match ← Host.read request.script with
    | .error .notFound | .error .notDirectory | .error .nameTooLong | .error .nulInPath =>
      return .failure 1 "" started ("File not found: " ++ request.script)
    | .error fault =>
      return .failure 1 "" started
        ("Failed to read " ++ request.script ++ ": " ++ fault.message)
    | .ok source => load request backend source

/-- Runs the program. -/
def run (args : List String) (environment : Option String) : m Outcome :=
  match parse? known args with
  | none => pure (.refused usage)
  | some arguments =>
    if isGiven "help" arguments then pure (.success usage "")
    else if isGiven "version" arguments then pure (.success "matscript 0.0.1-dev\n" "")
    else
      match Request.ofArguments? arguments with
      | none => pure (.refused usage)
      | some request => perform request environment

end MaterialScript.CommandLine.Inspect
