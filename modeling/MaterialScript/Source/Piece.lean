/-
The pieces a script is cut into.

Scanning cuts one piece after another off the front of the text. A piece is
a lexeme, which makes a token, or a gap, which makes none: a carriage return
or a comment. A line comment ends before its line feed; a block comment that
is never closed takes the whole rest of the text.

`cut_append`: cutting loses nothing and always moves on.
-/
import MaterialScript.Source.Literal
import MaterialScript.Source.Numeral
import MaterialScript.ScriptError

namespace MaterialScript

/-- A stretch of text without a token of its own, or the text of one token. -/
inductive Piece where
  | gap (source : List Char)
  | lexeme (source : List Char) (kind : TokenKind) (text : List Char)

namespace Piece

/-- The piece as written. -/
def source : Piece → List Char
  | gap source => source
  | lexeme source _ _ => source

/-- The tokens of a piece that starts at `p`: one for a lexeme, none for a gap. -/
def tokens (p : Position) : Piece → List Token
  | gap _ => []
  | lexeme _ kind text => [⟨kind, String.ofList text, p⟩]

/-- A lexeme that is a single character and carries no text. -/
def single (c : Char) (kind : TokenKind) : Piece := lexeme [c] kind []

/-- The characters a name starts with. -/
def startsName (c : Char) : Bool := c.isAlpha || c == '_'

/-- The characters a name goes on with. -/
def continuesName (c : Char) : Bool := c.isAlphanum || c == '_'

/-- The body of a block comment up to and with the closing mark, and what follows. -/
def cutBlockComment : List Char → List Char × List Char
  | [] => ([], [])
  | '*' :: '/' :: cs => (['*', '/'], cs)
  | c :: cs => (c :: (cutBlockComment cs).1, (cutBlockComment cs).2)

theorem cutBlockComment_append (cs : List Char) :
    (cutBlockComment cs).1 ++ (cutBlockComment cs).2 = cs := by
  fun_induction cutBlockComment cs <;> simp_all

/-- The characters of a line comment. -/
def inLine (c : Char) : Bool := c != '\n'

/-- The string literal that opens before `cs`. -/
def cutLiteral (cs : List Char) : Except Fault (Piece × List Char) :=
  match Literal.cut? cs with
  | some l => .ok (lexeme ('"' :: l.source) .string l.content, l.rest)
  | none => .error .unterminatedString

/-- The number literal at the front of `cs`. -/
def cutNumber (cs : List Char) : Except Fault (Piece × List Char) :=
  match Numeral.cut cs with
  | (n, rest) =>
    if n.isValue then
      .ok (lexeme n.lexeme (if n.isInteger then .integer else .float) n.lexeme, rest)
    else .error (.invalidNumber (String.ofList n.lexeme))

/-- The name whose first character is `c`. -/
def cutName (c : Char) (cs : List Char) : Piece × List Char :=
  let word := c :: cs.takeWhile continuesName
  (lexeme word .name word, cs.dropWhile continuesName)

/-- The punctuation character `c`. -/
def cutSymbol (c : Char) (cs : List Char) : Except Fault (Piece × List Char) :=
  match Symbol.ofChar? c with
  | some s => .ok (single c (.symbol s), cs)
  | none => .error (.unexpectedCharacter c)

/-- The first piece of the text `c :: cs`, and the rest of the text. -/
def cut (c : Char) (cs : List Char) : Except Fault (Piece × List Char) :=
  match c, cs with
  | '\r', cs => .ok (gap ['\r'], cs)
  | '/', '/' :: cs => .ok (gap ('/' :: '/' :: cs.takeWhile inLine), cs.dropWhile inLine)
  | '/', '*' :: cs => .ok (gap ('/' :: '*' :: (cutBlockComment cs).1), (cutBlockComment cs).2)
  | ' ', cs => .ok (single ' ' .blank, cs)
  | '\t', cs => .ok (single '\t' .tab, cs)
  | '\n', cs => .ok (single '\n' .newline, cs)
  | '"', cs => cutLiteral cs
  | c, cs =>
    if c.isDigit then cutNumber (c :: cs)
    else if startsName c then .ok (cutName c cs)
    else cutSymbol c cs

theorem cutLiteral_append {cs rest : List Char} {piece : Piece}
    (h : cutLiteral cs = .ok (piece, rest)) :
    piece.source ++ rest = '"' :: cs ∧ piece.source ≠ [] := by
  unfold cutLiteral at h
  split at h
  · rename_i l hl
    cases h
    simp [source, Literal.source_append_rest hl]
  · cases h

theorem cutNumber_append {c : Char} {cs rest : List Char} {piece : Piece} (hc : c.isDigit)
    (h : cutNumber (c :: cs) = .ok (piece, rest)) :
    piece.source ++ rest = c :: cs ∧ piece.source ≠ [] := by
  unfold cutNumber at h
  split at h
  rename_i n rest hn
  have happend := Numeral.lexeme_append_cut (c :: cs)
  have hne := Numeral.lexeme_cut_ne_nil cs hc
  rw [hn] at happend hne
  split at h
  · cases h
    exact ⟨happend, hne⟩
  · cases h

theorem cutSymbol_append {c : Char} {cs rest : List Char} {piece : Piece}
    (h : cutSymbol c cs = .ok (piece, rest)) :
    piece.source ++ rest = c :: cs ∧ piece.source ≠ [] := by
  unfold cutSymbol at h
  split at h
  · cases h
    simp [source, single]
  · cases h

/-- A piece and the rest make up the text, and the piece is not empty. -/
theorem cut_append {c : Char} {cs rest : List Char} {piece : Piece}
    (h : cut c cs = .ok (piece, rest)) :
    piece.source ++ rest = c :: cs ∧ piece.source ≠ [] := by
  unfold cut at h
  split at h
  · cases h; simp [source]
  · cases h; simp [source, List.takeWhile_append_dropWhile]
  · cases h; simp [source, cutBlockComment_append]
  · cases h; simp [source, single]
  · cases h; simp [source, single]
  · cases h; simp [source, single]
  · exact cutLiteral_append h
  · split at h
    · rename_i hc
      exact cutNumber_append hc h
    · split at h
      · cases h; simp [source, List.takeWhile_append_dropWhile]
      · exact cutSymbol_append h

theorem source_append_rest {c : Char} {cs rest : List Char} {piece : Piece}
    (h : cut c cs = .ok (piece, rest)) : piece.source ++ rest = c :: cs :=
  (cut_append h).1

theorem length_rest {c : Char} {cs rest : List Char} {piece : Piece}
    (h : cut c cs = .ok (piece, rest)) : rest.length < (c :: cs).length := by
  obtain ⟨happend, hne⟩ := cut_append h
  rw [← happend]
  have := List.length_pos_iff.2 hne
  simp
  omega

end Piece

end MaterialScript
