/-
Tokens of a material script.

A script is a sequence of names, string and number literals, single
punctuation characters, blanks, tabs and line feeds, closed by an end-of-file
token. Names and literals carry their text; every token carries the place
where it starts. Whitespace is kept as tokens because a line feed ends a
variable definition, a string value and a color value.
-/
namespace MaterialScript

/-- A place in a script, counted from 1; a column counts characters. -/
structure Position where
  row : Nat
  column : Nat
deriving DecidableEq

namespace Position

/-- The first character of a script. -/
def start : Position := ⟨1, 1⟩

/-- The place that follows character `c` at `p`. -/
def after (p : Position) (c : Char) : Position :=
  if c = '\n' then ⟨p.row + 1, 1⟩ else ⟨p.row, p.column + 1⟩

/-- The place that follows a stretch of text starting at `p`. -/
def afterAll (p : Position) (text : List Char) : Position :=
  text.foldl after p

@[simp] theorem afterAll_nil (p : Position) : p.afterAll [] = p := rfl

/-- Written `row:column`. -/
def render (p : Position) : String :=
  toString p.row ++ ":" ++ toString p.column

end Position

/-- The punctuation characters of the language. -/
inductive Symbol where
  | comma | dot | colon | semicolon | exclamation | question | hash | atSign | dollar
  | leftParen | rightParen | leftBracket | rightBracket | leftBrace | rightBrace
  | greater | less | equal | plus | minus | star | slash | percent | tilde
  | ampersand | bar | caret
deriving DecidableEq

namespace Symbol

/-- The character a symbol is written with. -/
def char : Symbol → Char
  | comma => ',' | dot => '.' | colon => ':' | semicolon => ';' | exclamation => '!'
  | question => '?' | hash => '#' | atSign => '@' | dollar => '$' | leftParen => '('
  | rightParen => ')' | leftBracket => '[' | rightBracket => ']' | leftBrace => '{'
  | rightBrace => '}' | greater => '>' | less => '<' | equal => '=' | plus => '+'
  | minus => '-' | star => '*' | slash => '/' | percent => '%' | tilde => '~'
  | ampersand => '&' | bar => '|' | caret => '^'

/-- Every symbol once. -/
def all : List Symbol :=
  [comma, dot, colon, semicolon, exclamation, question, hash, atSign, dollar, leftParen,
    rightParen, leftBracket, rightBracket, leftBrace, rightBrace, greater, less, equal, plus,
    minus, star, slash, percent, tilde, ampersand, bar, caret]

/-- The symbol written with `c`. -/
def ofChar? (c : Char) : Option Symbol :=
  all.find? fun s => s.char == c

theorem ofChar?_char (s : Symbol) : ofChar? s.char = some s := by
  cases s <;> rfl

theorem char_of_ofChar? {c : Char} {s : Symbol} (h : ofChar? c = some s) : s.char = c := by
  simpa using List.find?_some h

/-- The bracket that a closing bracket closes. -/
def opener? : Symbol → Option Symbol
  | rightParen => some leftParen
  | rightBracket => some leftBracket
  | rightBrace => some leftBrace
  | _ => none

/-- The opening brackets. -/
def opens : Symbol → Bool
  | leftParen | leftBracket | leftBrace => true
  | _ => false

end Symbol

/-- What a token is; `unknown` marks the place before the first token. -/
inductive TokenKind where
  | unknown
  | name
  | string
  | integer
  | float
  | symbol (s : Symbol)
  | blank
  | tab
  | newline
  | endOfFile
deriving DecidableEq

namespace TokenKind

/-- Blanks, tabs and line feeds. -/
def isWhitespace : TokenKind → Bool
  | blank | tab | newline => true
  | _ => false

/-- Integer and float literals. -/
def isNumber : TokenKind → Bool
  | integer | float => true
  | _ => false

/-- The character of a punctuation kind. -/
def char? : TokenKind → Option Char
  | symbol s => some s.char
  | _ => none

/-- How messages name a kind: a punctuation character stands between single quotes. -/
def describe : TokenKind → String
  | unknown => "unknown token"
  | name => "identifier"
  | string => "string"
  | integer => "integer"
  | float => "float"
  | symbol s => "'" ++ s.char.toString ++ "'"
  | blank => "blank"
  | tab => "tab"
  | newline => "new-line"
  | endOfFile => "end-of-file"

end TokenKind

/-- A token: the text is empty except for names and literals. -/
structure Token where
  kind : TokenKind
  text : String
  position : Position
deriving DecidableEq

namespace Token

/-- A token without text. -/
def bare (kind : TokenKind) (position : Position) : Token := ⟨kind, "", position⟩

/-- Stands for the current token while nothing has been read. -/
def beforeFirst : Token := bare .unknown ⟨0, 0⟩

/-- The name token spelled `word`. -/
def isName (t : Token) (word : String) : Bool := t.kind == .name && t.text == word

theorem isName_iff {t : Token} {word : String} :
    t.isName word ↔ t.kind = .name ∧ t.text = word := by
  simp [isName]

/-- The token is the punctuation character `s`. -/
def isSymbol (t : Token) (s : Symbol) : Bool := t.kind == .symbol s

def isEndOfFile (t : Token) : Bool := t.kind == .endOfFile

/-- A line feed or the end of the file. -/
def endsLine (t : Token) : Bool := t.kind == .newline || t.kind == .endOfFile

/-- How messages name a token: names and strings are quoted, numbers are not. -/
def describe (t : Token) : String :=
  match t.kind with
  | .name | .string => t.kind.describe ++ " \"" ++ t.text ++ "\""
  | .integer | .float => t.kind.describe ++ " " ++ t.text
  | kind => kind.describe

end Token

end MaterialScript
