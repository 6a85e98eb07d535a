/-
A cursor over a token sequence.

The sequence is kept in two halves: the tokens passed, latest first, and the
tokens still to come. The current token is the one passed last. The sequence
always ends in an end-of-file token; past it every step stays where it is.

Blanks and tabs are whitespace. A line feed is whitespace too unless line
breaks count, which they do while a value that ends with its line is read.

`Passes c ts d` says that `d` has gone on from `c` over the tokens `ts`, and
`Leads c d` that there are such tokens.
-/
import MaterialScript.Token

namespace MaterialScript

/-- A place between the tokens of a sequence. -/
structure Cursor where
  /-- Tokens behind the cursor, latest first. -/
  passed : List Token
  /-- Tokens ahead of the cursor. -/
  rest : List Token
  /-- Line feeds are tokens to read, not whitespace. -/
  lineBreaksCount : Bool

namespace Cursor

/-- The sequence closed by an end-of-file token, added after the last token if there is none. -/
def closed (tokens : List Token) : List Token :=
  match tokens.getLast? with
  | none => [Token.bare .endOfFile .start]
  | some t => if t.isEndOfFile then tokens else tokens ++ [Token.bare .endOfFile t.position]

/-- A cursor before the first token. -/
def ofTokens (tokens : List Token) : Cursor := ⟨[], closed tokens, false⟩

/-- All tokens of the sequence, wherever the cursor stands. -/
def tokens (c : Cursor) : List Token := c.passed.reverse ++ c.rest

/-- The number of tokens passed. -/
def offset (c : Cursor) : Nat := c.passed.length

/-- The token passed last. -/
def current (c : Cursor) : Token := c.passed.headD Token.beforeFirst

/-- A token that is whitespace where line breaks count, or where they do not. -/
def skipsWhen (lineBreaksCount : Bool) (t : Token) : Bool :=
  match t.kind with
  | .blank | .tab => true
  | .newline => !lineBreaksCount
  | _ => false

/-- A token that the cursor skips as whitespace. -/
def skips (c : Cursor) (t : Token) : Bool := skipsWhen c.lineBreaksCount t

/-- Passes tokens up to and with the first that is not skipped. -/
def passOver (skipped : Token → Bool) (passed : List Token) : List Token → List Token × List Token
  | [] => (passed, [])
  | t :: rest => if skipped t then passOver skipped (t :: passed) rest else (t :: passed, rest)

/-- Takes back tokens until the one passed last is not skipped. -/
def takeBack (skipped : Token → Bool) : List Token → List Token → List Token × List Token
  | [], rest => ([], rest)
  | t :: passed, rest =>
    match passed with
    | [] => ([], t :: rest)
    | p :: _ => if skipped p then takeBack skipped passed (t :: rest) else (passed, t :: rest)

/-- Passes tokens until one is wanted, counting those passed before it and not skipped. -/
def passUntil (wanted skipped : Token → Bool) (passed : List Token) :
    List Token → List Token × List Token × Nat
  | [] => (passed, [], 0)
  | t :: rest =>
    if skipped t then passUntil wanted skipped (t :: passed) rest
    else if wanted t then (t :: passed, rest, 0)
    else
      let (passed, rest, count) := passUntil wanted skipped (t :: passed) rest
      (passed, rest, count + 1)

/-- The tokens a step skips: whitespace, or nothing at all. -/
def skipped (c : Cursor) (skipWhitespace : Bool) (t : Token) : Bool := skipWhitespace && c.skips t

/-- One step forward. -/
def advance (c : Cursor) (skipWhitespace : Bool) : Cursor :=
  let (passed, rest) := passOver (c.skipped skipWhitespace) c.passed c.rest
  { c with passed, rest }

/-- One step back. -/
def retreat (c : Cursor) (skipWhitespace : Bool) : Cursor :=
  let (passed, rest) := takeBack (c.skipped skipWhitespace) c.passed c.rest
  { c with passed, rest }

/-- The token a step forward leads to. -/
def peek (c : Cursor) (skipWhitespace : Bool) : Token := (c.advance skipWhitespace).current

/-- Steps forward to a token of this kind or the end of the file, and the number of tokens passed
on the way. -/
def advanceUntil (c : Cursor) (kind : TokenKind) (skipWhitespace : Bool) : Cursor × Nat :=
  let (passed, rest, count) :=
    passUntil (fun t => t.kind == kind || t.isEndOfFile) (c.skipped skipWhitespace) c.passed c.rest
  ({ c with passed, rest }, count)

/-- The number of tokens of the sequence. -/
def length (c : Cursor) : Nat := c.passed.length + c.rest.length

def isEmpty (c : Cursor) : Bool := c.passed.isEmpty && c.rest.isEmpty

/-- `d` is reached from `c` by passing the tokens `ts`. -/
structure Passes (c : Cursor) (ts : List Token) (d : Cursor) : Prop where
  rest : c.rest = ts ++ d.rest
  passed : d.passed = ts.reverse ++ c.passed

/-- `d` is reached from `c` by passing the tokens `c` has before it. -/
def Leads (c d : Cursor) : Prop := ∃ ts, c.Passes ts d

/-- Nothing is passed where only the setting of line breaks differs. -/
theorem Passes.of_eq {c d : Cursor} (hpassed : d.passed = c.passed) (hrest : d.rest = c.rest) :
    c.Passes [] d :=
  ⟨by simp [hrest], by simp [hpassed]⟩

theorem Passes.refl (c : Cursor) : c.Passes [] c := .of_eq rfl rfl

theorem Passes.trans {a b c : Cursor} {ts us : List Token} (hab : a.Passes ts b)
    (hbc : b.Passes us c) : a.Passes (ts ++ us) c :=
  ⟨by simp [hab.rest, hbc.rest], by simp [hab.passed, hbc.passed]⟩

theorem Passes.rest_eq {c d : Cursor} {ts rest : List Token} (h : c.Passes ts d)
    (hrest : c.rest = ts ++ rest) : d.rest = rest :=
  List.append_cancel_left (h.rest.symm.trans hrest)

/-- The tokens passed tell where a cursor ends. -/
theorem Passes.unique {c d d' : Cursor} {ts : List Token} (h : c.Passes ts d) (h' : c.Passes ts d')
    (hbreaks : d.lineBreaksCount = d'.lineBreaksCount) : d = d' := by
  have hrest := h.rest_eq h'.rest
  have hpassed := h.passed.trans h'.passed.symm
  obtain ⟨passed, rest, m⟩ := d
  obtain ⟨passed', rest', m'⟩ := d'
  cases hrest
  cases hpassed
  cases hbreaks
  rfl

/-- Going on never changes the sequence itself. -/
theorem Passes.tokens_eq {c d : Cursor} {ts : List Token} (h : c.Passes ts d) :
    d.tokens = c.tokens := by
  simp [tokens, h.rest, h.passed]

theorem Leads.refl (c : Cursor) : c.Leads c := ⟨[], .refl c⟩

theorem Leads.trans {a b c : Cursor} (hab : a.Leads b) (hbc : b.Leads c) : a.Leads c := by
  obtain ⟨x, hx⟩ := hab
  obtain ⟨y, hy⟩ := hbc
  exact ⟨x ++ y, hx.trans hy⟩

theorem Leads.length_rest_le {c d : Cursor} (h : c.Leads d) : d.rest.length ≤ c.rest.length := by
  obtain ⟨x, hx⟩ := h
  simp [hx.rest]

theorem Leads.tokens_eq {c d : Cursor} (h : c.Leads d) : d.tokens = c.tokens := by
  obtain ⟨x, hx⟩ := h
  exact hx.tokens_eq

theorem passOver_leads (skipped : Token → Bool) (passed rest : List Token) :
    ∃ between, rest = between ++ (passOver skipped passed rest).2 ∧
      (passOver skipped passed rest).1 = between.reverse ++ passed := by
  induction rest generalizing passed with
  | nil => exact ⟨[], rfl, rfl⟩
  | cons t rest ih =>
    unfold passOver
    split
    · obtain ⟨x, hx, hx'⟩ := ih (t :: passed)
      exact ⟨t :: x, by rw [List.cons_append, ← hx], by simp [hx']⟩
    · exact ⟨[t], rfl, rfl⟩

theorem length_passOver_le (skipped : Token → Bool) (passed rest : List Token) :
    (passOver skipped passed rest).2.length ≤ rest.length := by
  obtain ⟨x, hx, -⟩ := passOver_leads skipped passed rest
  have := congrArg List.length hx
  simp at this
  omega

theorem advance_leads (c : Cursor) (skipWhitespace : Bool) :
    c.Leads (c.advance skipWhitespace) := by
  obtain ⟨ts, hrest, hpassed⟩ := passOver_leads (c.skipped skipWhitespace) c.passed c.rest
  exact ⟨ts, hrest, hpassed⟩

/-- A step forward moves unless nothing is left. -/
theorem length_rest_advance_lt (c : Cursor) (skipWhitespace : Bool) (h : c.rest ≠ []) :
    (c.advance skipWhitespace).rest.length < c.rest.length := by
  obtain ⟨passed, rest, breaks⟩ := c
  cases rest with
  | nil => exact absurd rfl h
  | cons t rest =>
    simp only [advance, passOver]
    split
    · exact Nat.lt_succ_of_le (length_passOver_le _ _ _)
    · simp

@[simp] theorem lineBreaksCount_advance (c : Cursor) (skipWhitespace : Bool) :
    (c.advance skipWhitespace).lineBreaksCount = c.lineBreaksCount := rfl

end Cursor

end MaterialScript
