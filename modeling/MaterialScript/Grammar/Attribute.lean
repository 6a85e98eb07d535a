/-
Attributes: the lines of a block that set one value.

A block with simple lines is described by a table from names to attributes.
An attribute tells what kind of value its line holds and how the value changes
what the block describes.
-/
import MaterialScript.Parser.Block

namespace MaterialScript

/-- A line that changes a `β` by the value it holds. -/
inductive Attribute (β : Type) where
  | color (set : Color → β → β)
  | number (set : Float → β → β)
  | flag (set : Bool → β → β)
  | text (set : String → β → β)
  | keyword (changes : Vocabulary (β → β))

/-- The attributes of a block by the names that open their lines. -/
abbrev Attributes (β : Type) := List (String × Attribute β)

namespace Attribute

variable {α β γ ρ : Type}

/-- An attribute whose value is a word of a vocabulary. -/
def ofVocabulary (vocabulary : Vocabulary α) (set : α → β → β) : Attribute β :=
  keyword (vocabulary.map set)

/-- Reads the value of a line; answers the change it makes. -/
def read : Attribute β → Parser ρ (β → β)
  | color set => return set (← Parser.color)
  | number set => return set (← Parser.number)
  | flag set => return set (← Parser.flag)
  | text set => return set (← Parser.text)
  | keyword changes => Parser.keyword changes

/-- Reads the rest of a line from the name that opens it; a name that is not in the table is
refused. -/
def readLine (attributes : Attributes β) (t : Token) : Parser ρ (β → β) :=
  match attributes.lookup t.text with
  | some a => a.read
  | none => Parser.unexpectedName t

end Attribute

end MaterialScript
