/-
The lines of a text.

A line ends with a line feed, and one carriage return before the line feed
belongs to the line's end. Text after the last line feed is a line too, kept
as it is; nothing after the last line feed is no line.
-/
namespace MaterialScript.Text

/-- The lines of a text without their ends. -/
def lines : List Char → List (List Char)
  | [] => []
  | '\n' :: cs => [] :: lines cs
  | '\r' :: '\n' :: cs => [] :: lines cs
  | c :: cs =>
    match lines cs with
    | [] => [[c]]
    | line :: more => (c :: line) :: more

/-- The lines of a string without their ends. -/
def linesOf (text : String) : List String := (lines text.toList).map String.ofList

end MaterialScript.Text
