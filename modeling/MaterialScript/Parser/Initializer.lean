/-
Variable definitions: `@name = initializer`.

An initializer reaches to the end of its line. It is a number, which a minus
may negate, or strings joined by `+`. A variable stands for its value; one
that is not bound counts as zero in front and as the empty string after a
string, and is warned of.
-/
import MaterialScript.Decimal.Reading
import MaterialScript.Parser.Token

namespace MaterialScript.Parser

variable {ρ : Type}

/-- The value of a number token. -/
def numeral (t : Token) : Parser ρ Float :=
  match Decimal.read? t.text with
  | some v => pure v
  | none => failAt t (.invalidNumber t.text)

/-- The term after a sign, which stands on the same line. -/
def termOnLine : Parser ρ Token := do
  let t ← next
  if t.kind = .newline then unexpected t else return t

/-- The value of a term; `unbound` stands for a variable that is not bound. -/
def operand (unbound : Value) (t : Token) : Parser ρ Value :=
  match t.kind with
  | .integer | .float => do
    return .number (← numeral t)
  | .string => return .text t.text
  | .symbol .atSign => do
    let name ← variableName
    match ← consult (·.get? name) with
    | some value => return value
    | none =>
      note [Variables.unknown name]
      return unbound
  | _ => failAt t (.unexpectedToken t.describe)

/-- Refuses whatever follows a number on its line. -/
def endOfNumber : Parser ρ Unit := do
  let t ← take true
  if t.endsLine then return ()
  else if t.isSymbol .plus then
    failAt t (.typeMismatch "only strings can be combined with '+'")
  else failAt t (.unexpectedToken t.describe)

/-- The string that follows a `+`. -/
def joined : Parser ρ String := do
  let t ← termOnLine
  if t.isSymbol .minus then failAt t (.typeMismatch "strings can not be negative")
  else
    match ← operand (.text "") t with
    | .text s => return s
    | .number _ => failAt t (.typeMismatch "numbers can not be appended to strings")

/-- The strings joined to `first` up to the end of the line. -/
def restOfText (first : String) : Parser ρ String :=
  overTokens
    (fun text t =>
      if t.endsLine then return .done text
      else if t.isSymbol .plus then return .more (text ++ (← joined))
      else failAt t (.unexpectedToken t.describe))
    (fun text _ => return text)
    first

/-- The initializer after its minus: a number. -/
def negated : Parser ρ Value := do
  let t ← termOnLine
  match ← operand (.number 0) t with
  | .number v =>
    endOfNumber
    return .number (-v)
  | .text _ => failAt t (.typeMismatch "strings can not be negative")

/-- The initializer that starts with the term `t`: a number or strings. -/
def unsigned (t : Token) : Parser ρ Value := do
  match ← operand (.number 0) t with
  | .number v =>
    endOfNumber
    return .number v
  | .text s => return .text (← restOfText s)

/-- The initializer that follows the token read last; the cursor ends at the end of the line. -/
def initializer : Parser ρ Value := do
  let t ← take true
  if t.endsLine then failAt t .emptyInitializer
  else if t.isSymbol .minus then negated
  else unsigned t

/-- The line of a variable definition, from the name on. -/
def definitionLine : Parser ρ Unit := do
  let name ← variableName
  noteIf (← consult (·.contains name))
    [.warning ("Multiple definition of variable named \"" ++ name ++ "\"")]
  let t ← next
  if t.isSymbol .equal then
    setVariable name (← initializer)
  else failAt t .expectedAssignment

/-- A variable definition whose `@` has just been read. -/
def variableDefinition : Parser ρ Unit := withLineBreaks definitionLine

end MaterialScript.Parser
