/-
Reports of script errors.

A report names the fault and, where the place is known, shows the line of the
script it stands on with a caret under its column. Some faults come with help.
-/
import MaterialScript.Report.Styled
import MaterialScript.ScriptError
import MaterialScript.Text.Lines

namespace MaterialScript.Report

/-- A number right-aligned in three columns, and a bar. -/
def gutter (line : Nat) : String :=
  let digits := toString line
  String.ofList (List.replicate (3 - digits.length) ' ') ++ digits ++ " | "

/-- The marker under a line: a caret below its column, past the gutter. -/
def marker (line column : Nat) : String :=
  String.ofList (List.replicate ((gutter line).length + (column - 1)) ' ') ++ "^"

/-- The line of a script with a caret under a column; no lines if the script has no such line. -/
def excerpt (source : String) (line column : Nat) : List StyledLine :=
  match (Text.linesOf source)[line - 1]? with
  | none => []
  | some text =>
    [[.plain "     |"],
      [.faint (gutter line), .plain text],
      [.red (marker line column), .red " error here"],
      [.plain "     |"]]

/-- The place of an error and the line it stands on. -/
def location (source : String) (e : ScriptError) : List StyledLine :=
  match e.line, e.column with
  | some line, some column =>
    [.plain ("  --> line " ++ toString line ++ ", column " ++ toString column)]
      :: excerpt source line column
  | _, _ => []

/-- A line that tells how to go on. -/
def advice (text : String) : StyledLine := [.yellow ("Help: " ++ text)]

/-- A line that shows something below an advice. -/
def detail (text : String) : StyledLine := [.plain "    ", .faint text]

/-- What helps against a fault. -/
def help : Fault → List StyledLine
  | .typeMismatch _ =>
    [advice "Only strings can be joined with '+'.",
      detail "Example: @path = @workingDir + \"textures/\"",
      detail "Numbers take a single, optionally negated, value: @n = -@m"]
  | .emptyInitializer | .expectedAssignment =>
    [advice "Variables are defined on one line.", detail "Example: @shine = 16"]
  | .duplicateDeclaration kind _ => [advice ("Every " ++ kind.noun ++ " needs a unique name.")]
  | .unknownLayerType _ => [advice "Texture layers are 'base', 'standard' or 'relief'."]
  | .missingShaderVersion =>
    [advice "Put the version before any source line.",
      detail "Example: vertex \x7b version std330 source \"...\" \x7d"]
  | .reservedName _ => [advice "Names starting with 'vertexFormat' refer to built-in formats."]
  | .unbalancedBracket _ => [advice "Check if braces, brackets and parentheses are balanced."]
  | .invalidTokenStream => [advice "The script declares nothing."]
  | .unterminatedString =>
    [advice "String is missing closing quote.", detail "Strings may not span multiple lines"]
  | .expectedIdentifier =>
    [advice "Declaration names are quoted strings.",
      detail "Example: material \"Rock\" \x7b \x7d"]
  | .textureLoad _ | .fileRead _ _ =>
    [advice "File operation failed.",
      detail "Check if the file exists and you have permission to read it"]
  | _ => []

/-- The report of an error in a script, under a label. -/
def scriptError (label source : String) (e : ScriptError) : List StyledLine :=
  [.alarm label, .plain ": ", .red e.fault.message] :: (location source e ++ help e.fault)

end MaterialScript.Report
