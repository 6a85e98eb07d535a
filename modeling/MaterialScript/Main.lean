/-
The command line.

One executable holds both programs: under a name that ends in `-bench` it
measures, under any other it inspects.
-/
import MaterialScript.CommandLine.Inspect
import MaterialScript.CommandLine.Measure
import Std.Time.DateTime

namespace MaterialScript.Main

/-- Why the machine refuses an operation on a path. -/
def faultOf (e : IO.Error) : FileFault :=
  match e with
  | .noFileOrDirectory _ _ _ => .notFound
  | .alreadyExists _ _ _ => .alreadyExists
  | .inappropriateType _ code details =>
    if code = 20 then .notDirectory
    else if code = 21 then .isDirectory
    else .other details
  | e => .other (toString e)

/-- Runs an operation of the machine on a path. -/
def attempt {α : Type} (operation : IO α) : IO (Except FileFault α) := do
  match ← operation.toBaseIO with
  | .ok a => return .ok a
  | .error e => return .error (faultOf e)

/-- The text of a file. -/
def readText (path : String) : IO (Except FileFault String) := do
  match ← attempt (IO.FS.readBinFile path) with
  | .error fault => return .error fault
  | .ok bytes =>
    match String.fromUTF8? bytes with
    | some text => return .ok text
    | none => return .error .notText

/-- The names in a directory. -/
def listNames (path : String) : IO (Option (List String)) := do
  let here ← IO.currentDir
  match ← attempt (here / path).readDir with
  | .ok entries => return some (entries.toList.map (·.fileName))
  | .error _ => return none

/-- The time of day in universal time. -/
def moment : IO Moment := do
  let t := Std.Time.PlainDateTime.ofWallTime (.ofTimestamp (← Std.Time.Timestamp.now) .zero)
  return ⟨t.year.toNat, t.month.val.toNat, t.day.val.toNat, t.hour.val.toNat, t.minute.val.toNat,
    t.second.val.toNat⟩

instance : Host IO where
  read := readText
  list? := listNames
  makeDirectories path := attempt (IO.FS.createDirAll path)
  write path text := attempt (IO.FS.writeFile path text)
  currentDirectory := return (← IO.currentDir).toString
  now := moment
  timed f := do
    let start ← IO.monoNanosNow
    let a ← IO.lazyPure f
    return (a, (← IO.monoNanosNow) - start)

/-- Writes what a program has left for its streams. -/
def finish (outcome : CommandLine.Outcome) : IO UInt32 := do
  IO.print outcome.output
  IO.eprint outcome.errors
  return outcome.exit

end MaterialScript.Main

open MaterialScript CommandLine in
/-- Runs the program the executable is named for. -/
def main (args : List String) : IO UInt32 := do
  if (← IO.appPath).toString.endsWith "-bench" then
    let ending : Measure.Ending ← Measure.run (← IO.currentDir).toString args
    Main.finish ending.1
  else
    let environment ← IO.getEnv Inspect.backendVariable
    Main.finish (← Inspect.run args environment)
