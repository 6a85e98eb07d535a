/-
The tokens of a script.

The text is cut into pieces; each lexeme becomes a token at the place where it
starts, and an end-of-file token closes the sequence. A text that cannot be
cut further is refused at the place where the piece would have started.
-/
import MaterialScript.Source.Piece

namespace MaterialScript.Source

/-- The tokens of a text that starts at `p`. -/
def tokensFrom (p : Position) (cs : List Char) : Except ScriptError (List Token) :=
  match cs with
  | [] => .ok [Token.bare .endOfFile p]
  | c :: cs =>
    match _h : Piece.cut c cs with
    | .error fault => .error (.placed p fault)
    | .ok (piece, rest) =>
      match tokensFrom (p.afterAll piece.source) rest with
      | .error e => .error e
      | .ok tokens => .ok (piece.tokens p ++ tokens)
termination_by cs.length
decreasing_by exact Piece.length_rest _h

/-- The tokens of a script. -/
def tokens (source : String) : Except ScriptError (List Token) :=
  tokensFrom .start source.toList

end MaterialScript.Source
