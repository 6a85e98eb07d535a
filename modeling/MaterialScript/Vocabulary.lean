/-
Vocabularies: the words a script may use in one place.

A word that is not in the vocabulary is no fault: a warning is noted, and the
vocabulary's fallback stands in for it.
-/
import MaterialScript.Journal

namespace MaterialScript

/-- Words with their meanings. -/
structure Vocabulary (α : Type) where
  /-- What the words name; used in the warning. -/
  domain : String
  fallback : α
  words : List (String × α)

namespace Vocabulary

variable {α β : Type}

/-- The meaning of a word of the vocabulary. -/
def find? (v : Vocabulary α) (word : String) : Option α := v.words.lookup word

/-- The meaning of a word; `fallback`, and a warning, if it has none. -/
def resolveOr (v : Vocabulary α) (word : String) (fallback : α) : α × Journal :=
  match v.find? word with
  | some meaning => (meaning, [])
  | none => (fallback, [.warning ("Unknown " ++ v.domain ++ " \"" ++ word ++ "\"")])

/-- The meaning of a word, or the vocabulary's own fallback. -/
def resolve (v : Vocabulary α) (word : String) : α × Journal := v.resolveOr word v.fallback

def size (v : Vocabulary α) : Nat := v.words.length

/-- The same words with other meanings. -/
def map (f : α → β) (v : Vocabulary α) : Vocabulary β :=
  ⟨v.domain, f v.fallback, v.words.map fun (word, meaning) => (word, f meaning)⟩

theorem lookup_map (f : α → β) (word : String) (words : List (String × α)) :
    (words.map fun (w, meaning) => (w, f meaning)).lookup word = (words.lookup word).map f := by
  induction words with
  | nil => rfl
  | cons e rest ih =>
    obtain ⟨w, meaning⟩ := e
    simp only [List.map_cons, List.lookup_cons, ih]
    split <;> rfl

theorem find?_map (f : α → β) (v : Vocabulary α) (word : String) :
    (v.map f).find? word = (v.find? word).map f :=
  lookup_map f word v.words

/-- Other meanings leave the warnings as they are. -/
theorem resolve_map (f : α → β) (v : Vocabulary α) (word : String) :
    (v.map f).resolve word = (f (v.resolve word).1, (v.resolve word).2) := by
  simp only [resolve, resolveOr, find?_map]
  cases v.find? word <;> rfl

end Vocabulary

end MaterialScript
