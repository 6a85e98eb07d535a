/-
Reading the value of an attribute.

One `=` may stand before a value. Strings and colors end with their line;
other values may stand on the next one.
-/
import MaterialScript.Parser.Initializer
import MaterialScript.Resource.Color
import MaterialScript.Vocabulary

namespace MaterialScript.Parser

variable {ρ α : Type}

/-- Passes the `=` before a value. -/
def optionalEqual : Parser ρ Unit := do
  let _ ← accept .equal

/-- A number without a sign, or the number a variable holds. -/
def magnitude (t : Token) : Parser ρ Float :=
  match t.kind with
  | .integer | .float => numeral t
  | .symbol .atSign => do
    let name ← variableName
    let (v, notices) := ← consult (·.lookupNumber name)
    note notices
    return v
  | .name => unexpectedName t
  | _ => unexpected t

/-- A number, which a minus may negate, from its first token on. -/
def signedNumber (t : Token) : Parser ρ Float :=
  if t.isSymbol .minus then do
    return -(← magnitude (← next))
  else magnitude t

/-- A number. -/
def number : Parser ρ Float := do
  optionalEqual
  signedNumber (← next)

/-- A bare name. -/
def word : Parser ρ String := do
  optionalEqual
  let t ← next
  if t.kind = .name then return t.text else unexpected t

/-- One of the words `true` and `false`. -/
def flag : Parser ρ Bool := do
  optionalEqual
  let t ← next
  if t.isName "true" then return true
  else if t.isName "false" then return false
  else if t.kind = .name then unexpectedName t
  else unexpected t

/-- A word of a vocabulary; any other name is warned of. -/
def keyword (vocabulary : Vocabulary α) : Parser ρ α := do
  let (meaning, notices) := vocabulary.resolve (← word)
  note notices
  return meaning

/-- A string literal, or the string a variable holds. -/
def textTerm (t : Token) : Parser ρ String :=
  match t.kind with
  | .string => return t.text
  | .symbol .atSign => do
    let name ← variableName
    let (s, notices) := ← consult (·.lookupText name)
    note notices
    return s
  | _ => failAt t .expectedString

/-- Strings joined by `+` on one line. -/
def text : Parser ρ String := withLineBreaks do
  optionalEqual
  return String.join (← separated .plus textTerm)

/-- Components separated by commas. -/
def colorParts : Parser ρ Color := do
  optionalEqual
  return Color.ofComponents ((← separated .comma signedNumber).map Color.component)

/-- A color: components separated by commas on one line. -/
def color : Parser ρ Color := withLineBreaks colorParts

/-- A name, either bare or as a string. -/
def nameOrText : Parser ρ String := do
  optionalEqual
  match (← peek).kind with
  | .string | .symbol .atSign => text
  | _ => word

end MaterialScript.Parser
