/-
What a program run leaves.
-/
import MaterialScript.Report.Styled

namespace MaterialScript.CommandLine

/-- The exit code and what was written to the two streams. -/
structure Outcome where
  exit : UInt32
  output : String
  errors : String

namespace Outcome

/-- The arguments are refused. -/
def refused (usage : String) : Outcome := ⟨2, "", usage⟩

/-- Success. -/
def success (output errors : String) : Outcome := ⟨0, output, errors⟩

/-- Ends with a message, after what has been written before. -/
def failure (exit : UInt32) (output errors message : String) : Outcome :=
  ⟨exit, output, errors ++ StyledLine.renderAll [.failure message]⟩

end Outcome

end MaterialScript.CommandLine
