/-
Writing JSON documents.

Objects and lists are written over several lines, two blanks deeper per level;
empty ones stay on one line. In strings, quotes, backslashes and control
characters are escaped.
-/
namespace MaterialScript.Text

/-- A document; numbers are kept as they are written. -/
inductive Json where
  | string (s : String)
  | number (written : String)
  | list (items : List Json)
  | object (fields : List (String × Json))

namespace Json

/-- A digit of a hexadecimal number. -/
def hexDigit (n : Nat) : Char := "0123456789abcdef".toList.getD n '0'

/-- A character inside a string. -/
def escape (c : Char) : List Char :=
  match c with
  | '"' => ['\\', '"']
  | '\\' => ['\\', '\\']
  | '\n' => ['\\', 'n']
  | '\r' => ['\\', 'r']
  | '\t' => ['\\', 't']
  | '\x08' => ['\\', 'b']
  | '\x0c' => ['\\', 'f']
  | c =>
    if c.toNat < 32 then ['\\', 'u', '0', '0', hexDigit (c.toNat / 16), hexDigit (c.toNat % 16)]
    else [c]

/-- A string between quotes. -/
def quote (s : String) : String := "\"" ++ String.ofList (s.toList.flatMap escape) ++ "\""

/-- A line break and the blanks of a level. -/
def newLine (level : Nat) : String := "\n" ++ String.ofList (List.replicate (2 * level) ' ')

/-- Items between an opening and a closing bracket, each on a line of its own. -/
def enclose (opening closing : String) (level : Nat) (items : List String) : String :=
  if items.isEmpty then opening ++ closing
  else
    opening ++ newLine (level + 1) ++ ("," ++ newLine (level + 1)).intercalate items
      ++ newLine level ++ closing

mutual

/-- A document whose first line stands at a level. -/
def renderAt (level : Nat) : Json → String
  | string s => quote s
  | number written => written
  | list items => enclose "[" "]" level (renderItems (level + 1) items)
  | object fields => enclose "\x7b" "\x7d" level (renderFields (level + 1) fields)

/-- The items of a list. -/
def renderItems (level : Nat) : List Json → List String
  | [] => []
  | item :: more => renderAt level item :: renderItems level more

/-- The fields of an object. -/
def renderFields (level : Nat) : List (String × Json) → List String
  | [] => []
  | (name, value) :: more =>
    (quote name ++ ": " ++ renderAt level value) :: renderFields level more

end

/-- A document as text. -/
def render (document : Json) : String := renderAt 0 document

end Json

end MaterialScript.Text
