/-
Lines and blocks.

A block stands between braces and holds lines, each opened by a name. Any
block, and the script as a whole, may also hold variable definitions and
blocks to discard.
-/
import MaterialScript.Parser.Value

namespace MaterialScript.Parser

variable {ρ β : Type}

/-- Skips the block after `discard`, which must follow at once. -/
def discardedBlock : Parser ρ Unit := do
  let t ← peek
  if t.isSymbol .leftBrace then skipBlock else unexpected t

/-- One line, opened by `t`. -/
def line (named : β → Token → Parser ρ β) (b : β) (t : Token) : Parser ρ β :=
  match t.kind with
  | .symbol .atSign => do
    variableDefinition
    return b
  | .name =>
    if t.text = "discard" then do
      discardedBlock
      return b
    else named b t
  | _ => unexpected t

theorem line_discard {named : β → Token → Parser ρ β} {b : β} {t : Token}
    (h : t.isName "discard") : line named b t = do discardedBlock; return b := by
  obtain ⟨hkind, htext⟩ := Token.isName_iff.1 h
  simp [line, hkind, htext]

/-- What a line says is up to its first name, unless that is `discard`. -/
theorem line_of_isName {named : β → Token → Parser ρ β} {b : β} {t : Token} {word : String}
    (h : t.isName word) (hword : word ≠ "discard") : line named b t = named b t := by
  obtain ⟨hkind, rfl⟩ := Token.isName_iff.1 h
  rw [line, hkind]
  exact if_neg hword

/-- The closing token or one line. -/
def lineOrClose (closing : TokenKind) (named : β → Token → Parser ρ β) (b : β) (t : Token) :
    Parser ρ (Progress β β) := do
  if t.kind = closing then return .done b else return .more (← line named b t)

/-- The end of the file, where it is the closing token. -/
def closeAtEnd (closing : TokenKind) (b : β) (t : Token) : Parser ρ β :=
  if t.kind = closing then return b else unexpected t

/-- Lines up to and with the token that closes them. `named` reads the rest of a line from the
name that opens it and carries on what the lines before have made. -/
def lines (closing : TokenKind) (named : β → Token → Parser ρ β) : β → Parser ρ β :=
  overTokens (lineOrClose closing named) (closeAtEnd closing)

/-- Lines up to and with the closing brace. -/
def blockBody (named : β → Token → Parser ρ β) : β → Parser ρ β :=
  lines (.symbol .rightBrace) named

/-- A block with its braces. -/
def block (named : β → Token → Parser ρ β) (b : β) : Parser ρ β := do
  expect .leftBrace
  blockBody named b

end MaterialScript.Parser
