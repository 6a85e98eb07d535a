/-
Bracket balance.

Round, square and curly brackets must be closed in order, each by its own
kind. The check runs over the whole token sequence before any declaration is
read, so an imbalance ends a load before a resource is created. The token
blamed is the first closing bracket that does not fit, else the innermost
bracket left open.
-/
import MaterialScript.ScriptError

namespace MaterialScript.Brackets

/-- The symbol of a token, if it is punctuation. -/
def symbol? (t : Token) : Option Symbol :=
  match t.kind with
  | .symbol s => some s
  | _ => none

/-- The error that blames `t`, whose symbol is `s`. -/
def unbalanced (t : Token) (s : Symbol) : ScriptError :=
  .placed t.position (.unbalancedBracket s.char)

/-- Checks tokens after brackets that are still open, innermost first. -/
def checkAfter : List (Token × Symbol) → List Token → Except ScriptError Unit
  | [], [] => .ok ()
  | (t, s) :: _, [] => .error (unbalanced t s)
  | stack, t :: ts =>
    match symbol? t with
    | none => checkAfter stack ts
    | some s =>
      if s.opens then checkAfter ((t, s) :: stack) ts
      else
        match s.opener? with
        | none => checkAfter stack ts
        | some opener =>
          match stack with
          | (_, innermost) :: stack =>
            if innermost = opener then checkAfter stack ts else .error (unbalanced t s)
          | [] => .error (unbalanced t s)

/-- Accepts the sequences in which every bracket is closed in order by its own kind. -/
def check (tokens : List Token) : Except ScriptError Unit :=
  checkAfter [] tokens

end MaterialScript.Brackets
