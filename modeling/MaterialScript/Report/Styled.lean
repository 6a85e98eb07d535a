/-
Styled text for terminals.

A line is a list of spans, each with a color of its own. Its plain text is
what a reader sees; written out, colors and weight stand around each span as
control sequences, weight outside the color.
-/
namespace MaterialScript

/-- The colors reports use. -/
inductive Ink where
  | red | green | yellow | faint
deriving DecidableEq

/-- A stretch of text in one style. -/
structure Span where
  text : String
  ink : Option Ink
  bold : Bool

/-- Spans from left to right. -/
abbrev StyledLine := List Span

namespace Span

/-- Text without a style. -/
def plain (text : String) : Span := ⟨text, none, false⟩

/-- Text in one color. -/
def inked (ink : Ink) (text : String) : Span := ⟨text, some ink, false⟩

def red (text : String) : Span := inked .red text

def green (text : String) : Span := inked .green text

def yellow (text : String) : Span := inked .yellow text

def faint (text : String) : Span := inked .faint text

/-- The red and bold word in front of an error. -/
def alarm (text : String) : Span := ⟨text, some .red, true⟩

/-- A control sequence with this parameter. -/
def control (parameter : String) : String := "\x1b[" ++ parameter ++ "m"

/-- The parameter that selects a color. -/
def inkParameter : Ink → String
  | .red => "31"
  | .green => "32"
  | .yellow => "33"
  | .faint => "90"

/-- The span with its control sequences. -/
def render (s : Span) : String :=
  let colored :=
    match s.ink with
    | none => s.text
    | some ink => control (inkParameter ink) ++ s.text ++ control "39"
  if s.bold then control "1" ++ colored ++ control "0" else colored

end Span

namespace StyledLine

/-- What a reader sees of a line. -/
def seen (line : StyledLine) : String := String.join (line.map (·.text))

/-- The line with its control sequences. -/
def render (line : StyledLine) : String := String.join (line.map Span.render)

/-- Lines, each closed by a line feed. -/
def renderAll (lines : List StyledLine) : String :=
  String.join (lines.map fun line => line.render ++ "\n")

/-- The line that reports a failure. -/
def failure (message : String) : StyledLine := [.alarm "error", .plain ": ", .red message]

end StyledLine

end MaterialScript
