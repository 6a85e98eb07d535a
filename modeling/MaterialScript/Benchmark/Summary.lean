/-
Results of a benchmark run, as a line of text and as a document.
-/
import MaterialScript.Benchmark.Samples
import MaterialScript.Host.Basic
import MaterialScript.Text.Json

namespace MaterialScript.Benchmark

/-- What measuring one script gave. -/
structure Measurement where
  name : String
  iterations : Nat
  tokens : Nat
  resources : Nat
  warnings : Nat
  samples : List Sample

namespace Measurement

/-- Right-aligned in twelve columns. -/
def alignedName (r : Measurement) : String :=
  String.ofList (List.replicate (12 - r.name.length) ' ') ++ r.name

/-- A time under its name. -/
def timeField (name : String) (nanoseconds : Nat) : String :=
  name ++ "=" ++ renderTime nanoseconds ++ "ms"

/-- The result on one line. -/
def line (r : Measurement) : String :=
  let totals := r.samples.map Sample.total
  r.alignedName ++ ": total " ++ timeField "avg" (average totals)
    ++ " " ++ timeField "min" (least totals) ++ " " ++ timeField "max" (greatest totals)
    ++ " | " ++ timeField "scan" (average (r.samples.map Sample.scan))
    ++ " " ++ timeField "validate" (average (r.samples.map Sample.validate))
    ++ " " ++ timeField "load" (average (r.samples.map Sample.load))
    ++ " | " ++ toString r.tokens ++ " tokens, " ++ toString r.resources ++ " resources"

/-- The result as a document. -/
def toJson (r : Measurement) : Text.Json :=
  let totals := r.samples.map Sample.total
  .object
    [("name", .string r.name),
      ("iterations", .number (toString r.iterations)),
      ("tokens", .number (toString r.tokens)),
      ("resources", .number (toString r.resources)),
      ("warnings", .number (toString r.warnings)),
      ("avg_total_ms", .number (exactTime (average totals))),
      ("min_total_ms", .number (exactTime (least totals))),
      ("max_total_ms", .number (exactTime (greatest totals))),
      ("avg_scan_ms", .number (exactTime (average (r.samples.map Sample.scan)))),
      ("avg_validate_ms", .number (exactTime (average (r.samples.map Sample.validate)))),
      ("avg_load_ms", .number (exactTime (average (r.samples.map Sample.load))))]

end Measurement

/-- A moment as `2000-01-31T23:59:59Z`. -/
def timestamp (t : Moment) : String :=
  padded 4 t.year ++ "-" ++ padded 2 t.month ++ "-" ++ padded 2 t.day
    ++ "T" ++ padded 2 t.hour ++ ":" ++ padded 2 t.minute ++ ":" ++ padded 2 t.second ++ "Z"

/-- A moment as a file name: without colons, with an underscore before the time of day. -/
def timestampedName (t : Moment) : String :=
  padded 4 t.year ++ "-" ++ padded 2 t.month ++ "-" ++ padded 2 t.day
    ++ "_" ++ padded 2 t.hour ++ "-" ++ padded 2 t.minute ++ "-" ++ padded 2 t.second ++ "Z.json"

/-- The version the document names. -/
def version : String := "0.0.1-dev"

/-- The document of a run. -/
def document (t : Moment) (results : List Measurement) : Text.Json :=
  .object
    [("timestamp", .string (timestamp t)),
      ("matscript_version", .string version),
      ("benchmarks", .list (results.map Measurement.toJson))]

end MaterialScript.Benchmark
