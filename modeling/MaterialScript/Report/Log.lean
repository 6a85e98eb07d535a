/-
Notices as log lines.
-/
import MaterialScript.Journal

namespace MaterialScript.Report

/-- The word for a severity. -/
def severityLabel : Severity → String
  | .info => "INFO"
  | .warning => "WARN"
  | .error => "ERROR"

/-- How much is logged: everything, or from a severity on. -/
def shows (least : Severity) (s : Severity) : Bool :=
  let rank : Severity → Nat
    | .info => 0
    | .warning => 1
    | .error => 2
  rank least ≤ rank s

/-- One line per notice that is at least this severe. -/
def log (least : Severity) (j : Journal) : String :=
  String.join ((j.filter fun n => shows least n.severity).map fun n =>
    "[" ++ severityLabel n.severity ++ "] " ++ n.text ++ "\n")

end MaterialScript.Report
