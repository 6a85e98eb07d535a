/-
Finding the scripts to measure.

Scripts are the entries of a directory whose name ends in `.material`. They
are ordered by their stem; scripts of one stem stay in the order in which
their directories are searched.
-/
import MaterialScript.Host.Basic
import MaterialScript.Host.Path
import MaterialScript.Text.Lowercase

namespace MaterialScript.Benchmark

/-- A script to measure. -/
structure Script where
  name : String
  path : String

/-- The scripts among the names in a directory. -/
def scriptsIn (directory : String) (names : List String) : List Script :=
  names.filterMap fun name =>
    match Path.splitName name with
    | (stem, some "material") => some ⟨stem, Path.join directory name⟩
    | _ => none

/-- Scripts in the order of their names. -/
def ordered (scripts : List Script) : List Script :=
  scripts.mergeSort fun a b => a.name ≤ b.name

/-- The scripts whose name is among those wanted, letter case apart. -/
def select (wanted : List String) (scripts : List Script) : List Script :=
  let wanted := wanted.map Text.lower
  scripts.filter fun s => wanted.contains (Text.lower s.name)

variable {m : Type → Type} [Monad m] [Host m]

/-- The scripts in directories; one that cannot be listed holds none. -/
def discover (directories : List String) : m (List Script) := do
  let found ← directories.mapM fun directory => do
    return scriptsIn directory ((← Host.list? directory).getD [])
  return ordered found.flatten

end MaterialScript.Benchmark
