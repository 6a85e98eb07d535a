/-
The program that measures how long scripts take to load.

It finds scripts below a root directory, loads each a number of times, prints
one line per script and saves a document with all results. A script that
cannot be read or loaded ends the run.
-/
import MaterialScript.Benchmark.Discovery
import MaterialScript.Benchmark.Summary
import MaterialScript.CommandLine.Arguments
import MaterialScript.CommandLine.Outcome
import MaterialScript.Loader
import MaterialScript.RenderSystem.Recorder

namespace MaterialScript.CommandLine.Measure

open Benchmark

/-- The options of the program. -/
def known : List KnownOption :=
  [.list "test" (some 't'), .setting "iterations" (some 'n'), .setting "warmup" (some 'w'),
    .setting "output" (some 'o'), .flag "include-scripts" none, .flag "list" none,
    .flag "help" (some 'h')]

/-- What the program tells about its options. -/
def usage : String :=
  "Usage: matscript-bench [OPTIONS]\n\n"
    ++ "  -t, --test <NAME>         Script to run, by file stem; all if omitted\n"
    ++ "  -n, --iterations <N>      Iterations per script [default: 50]\n"
    ++ "  -w, --warmup <N>          Warmup iterations [default: 5]\n"
    ++ "  -o, --output <PATH>       Output file; default: benchmark/results/<timestamp>.json\n"
    ++ "      --include-scripts     Include the scripts/ directory\n"
    ++ "      --list                List discovered scripts and exit\n"

/-- What the arguments ask for. -/
structure Request where
  tests : List String
  iterations : Nat
  warmup : Nat
  output : Option String
  includeScripts : Bool
  listOnly : Bool

/-- A whole number below 2^32: digits after an optional sign. A minus leaves only zero. -/
def count? (text : String) : Option Nat :=
  let (negative, digits) := Decimal.splitSign text.toList
  let n := Decimal.natOfDigits digits
  if digits.isEmpty || digits.any (!·.isDigit) || 0x100000000 ≤ n || (negative && n != 0) then none
  else some n

/-- The one value of a setting, or what stands for it. -/
def countOr (default : Nat) : List String → Option Nat
  | [] => some default
  | text :: _ => count? text

/-- Reads the arguments; `none` if they are refused. -/
def Request.ofArguments? (arguments : List Argument) : Option Request := do
  let iterations ← countOr 50 (valuesOf "iterations" arguments)
  let warmup ← countOr 5 (valuesOf "warmup" arguments)
  let outputs := valuesOf "output" arguments
  if !(texts arguments).isEmpty || outputs.contains "" then none
  else
    return {
      tests := valuesOf "test" arguments
      iterations
      warmup
      output := outputs.head?
      includeScripts := isGiven "include-scripts" arguments
      listOnly := isGiven "list" arguments }

/-- A loader as every measurement starts with. -/
def freshLoader : Loader Recorder := .new .default "/"

variable {m : Type → Type} [Monad m] [Host m]

/-- Loads a script a number of times without keeping anything. -/
def warmUp (files : Files) (source : String) : Nat → m Unit
  | 0 => pure ()
  | n + 1 => do
    let _ ← Host.timed fun _ => (freshLoader.readSource files source).1.isOk
    warmUp files source n

/-- Loads a script a number of times and takes the times of each phase. -/
def takeSamples (files : Files) (source : String) : Nat → List Sample → m (List Sample)
  | 0, samples => pure samples.reverse
  | n + 1, samples => do
    let (scanned, scan) ← Host.timed fun _ => Source.tokens source
    let tokens := scanned.toOption.getD []
    let (_, validate) ← Host.timed fun _ => (Brackets.check tokens).isOk
    let (_, load) ← Host.timed fun _ => (freshLoader.readTokens files tokens).1.isOk
    takeSamples files source n (⟨scan, validate, load⟩ :: samples)

/-- What one load of a script gives, apart from times. -/
def stats (files : Files) (source : String) : Except ScriptError (Nat × Nat × Nat) := do
  let tokens ← Source.tokens source
  let (answer, l) := freshLoader.readTokens files tokens
  answer
  let kinds : List ResourceKind := [.material, .shader, .vertexFormat, .texture, .textureLayer]
  let resources := kinds.foldl (fun count kind => count + l.resources.count kind) 0
  return (tokens.length, resources, (l.journal.textsOf .warning).length)

/-- Measures a script, or tells why it cannot be loaded. -/
def measure (request : Request) (name source : String) : m (Except ScriptError Measurement) := do
  let files ← Host.filesFor source fun files => (freshLoader.readSource files source).2.requested
  match stats files source with
  | .error e => return .error e
  | .ok (tokens, resources, warnings) =>
    warmUp files source request.warmup
    let samples ← takeSamples files source request.iterations []
    return .ok ⟨name, request.iterations, tokens, resources, warnings, samples⟩

/-- Measures scripts in order. Answers the lines printed and either the results or the message that
ended the run. -/
def measureAll (request : Request) :
    List Script → String → List Measurement → m (String × Except String (List Measurement))
  | [], printed, results => pure (printed, .ok results)
  | s :: more, printed, results => do
    match ← Host.read s.path with
    | .error fault =>
      return (printed, .error ("Failed to read " ++ s.path ++ ": " ++ fault.message))
    | .ok source =>
      match ← measure request s.name source with
      | .error e => return (printed, .error (s.name ++ ": " ++ e.message))
      | .ok r => measureAll request more (printed ++ r.line ++ "\n") (results ++ [r])

/-- Saves a document, with the directory it belongs in; `none`, or why it cannot be saved. -/
def save? (path text : String) : m (Option String) := do
  let parent := (Path.parent? path).getD ""
  match ← (if parent = "" then pure (.ok ()) else Host.makeDirectories parent) with
  | .error fault => return some ("Failed to create " ++ parent ++ ": " ++ fault.message)
  | .ok () =>
    match ← Host.write path text with
    | .error fault => return some ("Failed to write " ++ path ++ ": " ++ fault.message)
    | .ok () => return none

/-- The end of a run, and the path of the document it saved. -/
abbrev Ending := Outcome × Option String

/-- Saves the results of a run. -/
def conclude (root : String) (request : Request) (printed : String) (results : List Measurement) :
    m Ending := do
  let now ← Host.now
  let path := request.output.getD (root ++ "/benchmark/results/" ++ timestampedName now)
  match ← save? path (document now results).render with
  | some message => return (.failure 1 printed "" message, none)
  | none => return (.success (printed ++ "\nSaved results to " ++ path ++ "\n") "", some path)

/-- The list of scripts. -/
def listing (scripts : List Script) : String :=
  "Discovered scripts:\n"
    ++ String.join (scripts.map fun s => "- " ++ s.name ++ " (" ++ s.path ++ ")\n")

/-- Runs a request on the scripts below a root directory. -/
def perform (root : String) (request : Request) : m Ending := do
  let extra := if request.includeScripts then [root ++ "/scripts"] else []
  let scripts ← discover ((root ++ "/benchmark/scripts") :: extra)
  if request.listOnly then return (.success (listing scripts) "", none)
  let selected := if request.tests.isEmpty then scripts else select request.tests scripts
  if selected.isEmpty then
    let message :=
      if request.tests.isEmpty then "No .material scripts found in benchmark/scripts or scripts."
      else "No matching scripts. Use --list to see available."
    return (.failure 2 "" "" message, none)
  match ← measureAll request selected "" [] with
  | (printed, .error message) => return (.failure 1 printed "" message, none)
  | (printed, .ok results) => conclude root request printed results

/-- Runs the program; `none` if the arguments are refused. -/
def run (root : String) (args : List String) : m Ending :=
  match parse? known args with
  | none => pure (.refused usage, none)
  | some arguments =>
    if isGiven "help" arguments then pure (.success usage "", none)
    else
      match Request.ofArguments? arguments with
      | none => pure (.refused usage, none)
      | some request => perform root request

end MaterialScript.CommandLine.Measure
