/-
Reading single tokens.
-/
import MaterialScript.Parser.Basic

namespace MaterialScript.Parser

variable {ρ α β : Type}

/-- Refuses a token that does not fit where it stands. -/
def unexpected (t : Token) : Parser ρ α :=
  failAt t (if t.isEndOfFile then .unexpectedEndOfInput else .unexpectedToken t.describe)

/-- Refuses a name that has no meaning where it stands. -/
def unexpectedName (t : Token) : Parser ρ α := failAt t (.unexpectedIdentifier t.text)

/-- The token just read, unless it is the end of the file. -/
def unlessEnd (t : Token) : Parser ρ Token :=
  if t.isEndOfFile then failAt t .unexpectedEndOfInput else pure t

/-- The next token; the end of the file is an error. -/
def next : Parser ρ Token := do
  unlessEnd (← take true)

/-- Reads the symbol `s` and nothing else. -/
def expect (s : Symbol) : Parser ρ Unit := do
  let t ← next
  if t.isSymbol s then pure () else unexpected t

/-- Reads the symbol `s` if it stands next; tells whether it did. -/
def accept (s : Symbol) : Parser ρ Bool := do
  if (← peek).isSymbol s then
    let _ ← take true
    return true
  else return false

/-- The name that follows an `@` without a gap. -/
def variableName : Parser ρ String := do
  let t ← unlessEnd (← take false)
  if t.kind = .name then return t.text else failAt t .expectedIdentifier

/-- The quoted name of a declaration, which is not empty. -/
def declaredName : Parser ρ Token := do
  let t ← next
  if t.kind = .string ∧ t.text ≠ "" then return t else failAt t .expectedIdentifier

/-- A term from its first token on, and a symbol if more follow; `terms` have been read before. -/
def separatedRound (separator : Symbol) (term : Token → Parser ρ α) (terms : List α) (t : Token) :
    Parser ρ (Progress (List α) (List α)) := do
  let a ← term t
  return if ← accept separator then .more (terms ++ [a]) else .done (terms ++ [a])

/-- Goes on after `terms` and a symbol with one or more terms, and a symbol between them. -/
def separatedFrom (separator : Symbol) (term : Token → Parser ρ α) (terms : List α) :
    Parser ρ (List α) :=
  overTokens (separatedRound separator term) (fun _ t => failAt t .unexpectedEndOfInput) terms

/-- One or more terms with a symbol between them. -/
def separated (separator : Symbol) (term : Token → Parser ρ α) : Parser ρ (List α) :=
  separatedFrom separator term []

/-- Counts braces inside a block: `depth` blocks are open in it. -/
def closeBrace (depth : Nat) (t : Token) : Progress Nat Unit :=
  match t.kind, depth with
  | .symbol .leftBrace, depth => .more (depth + 1)
  | .symbol .rightBrace, 0 => .done ()
  | .symbol .rightBrace, depth + 1 => .more depth
  | _, depth => .more depth

/-- Passes tokens up to and with a `{`. -/
def seekBrace : Parser ρ Unit :=
  overTokens
    (fun () t => return if t.isSymbol .leftBrace then .done () else .more ())
    (fun () t => failAt t .unexpectedEndOfInput)
    ()

/-- Passes tokens up to and with the `}` that closes a block in which `depth` more are open. -/
def skipOut (depth : Nat) : Parser ρ Unit :=
  overTokens
    (fun depth t => return closeBrace depth t)
    (fun _ t => failAt t .unexpectedEndOfInput)
    depth

/-- Passes tokens up to and with the `}` that closes a block whose `{` has been passed. -/
def skipToClose : Parser ρ Unit := skipOut 0

/-- Skips to the next `{` and on to the `}` that closes it, whatever stands on the way. -/
def skipBlock : Parser ρ Unit := do
  seekBrace
  skipToClose

end MaterialScript.Parser
