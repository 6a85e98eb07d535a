/-
What the programs ask of the machine they run on.

The programs are written over any monad that can answer; the machine is one
such monad, a file tree in memory another.
-/
import MaterialScript.Files

namespace MaterialScript

/-- A date and a time of day in universal time. -/
structure Moment where
  year : Nat
  month : Nat
  day : Nat
  hour : Nat
  minute : Nat
  second : Nat

/-- Access to files and clocks. -/
class Host (m : Type → Type) where
  /-- The text of a file. -/
  read : String → m (Except FileFault String)
  /-- The names in a directory, if it can be listed. -/
  list? : String → m (Option (List String))
  /-- Makes a directory and those above it, as far as they are missing. -/
  makeDirectories : String → m (Except FileFault Unit)
  /-- Makes or replaces a file. -/
  write : String → String → m (Except FileFault Unit)
  currentDirectory : m String
  now : m Moment
  /-- A value and the nanoseconds it took. -/
  timed : {α : Type} → (Unit → α) → m (α × Nat)

namespace Host

variable {m : Type → Type} [Monad m] [Host m] {α : Type}

/-- The files fetched so far; any other is not found. -/
def fetchedFiles (fetched : List (String × Except FileFault String)) : Files :=
  fun path => (fetched.lookup path).getD (.error .notFound)

/-- Fetches the files a load asks for. A load is a function of its files and tells which ones it
has read; it is run again until it reads none but fetched ones, each run fetching one more. -/
def fetchFor (load : Files → List String) :
    Nat → List (String × Except FileFault String) → m (List (String × Except FileFault String))
  | 0, fetched => pure fetched
  | rounds + 1, fetched => do
    match (load (fetchedFiles fetched)).find? fun path => (fetched.lookup path).isNone with
    | none => return fetched
    | some path => fetchFor load rounds ((path, ← read path) :: fetched)

/-- The files a load asks for. A script asks for fewer files than it has characters. -/
def filesFor (source : String) (load : Files → List String) : m Files := do
  return fetchedFiles (← fetchFor load (source.length + 1) [])

end Host

end MaterialScript
