/-
The journal of a load.

Everything worth telling that does not end a load is noted here, in the order
in which it happened.
-/
namespace MaterialScript

/-- How serious a notice is. -/
inductive Severity where
  | info
  | warning
  | error
deriving DecidableEq

/-- A message for the author of a script. -/
structure Notice where
  severity : Severity
  text : String
deriving DecidableEq

namespace Notice

def info (text : String) : Notice := ⟨.info, text⟩

def warning (text : String) : Notice := ⟨.warning, text⟩

def error (text : String) : Notice := ⟨.error, text⟩

end Notice

/-- Notices, oldest first. -/
abbrev Journal := List Notice

namespace Journal

/-- The texts of one severity, oldest first. -/
def textsOf (severity : Severity) (j : Journal) : List String :=
  (j.filter (·.severity == severity)).map (·.text)

/-- `needle` stands somewhere in `text`. -/
def occursIn (needle : List Char) : List Char → Bool
  | [] => needle.isEmpty
  | c :: text => needle.isPrefixOf (c :: text) || occursIn needle text

/-- A notice of this severity contains `needle`. -/
def mentions (severity : Severity) (needle : String) (j : Journal) : Bool :=
  (j.textsOf severity).any fun text => occursIn needle.toList text.toList

end Journal

end MaterialScript
