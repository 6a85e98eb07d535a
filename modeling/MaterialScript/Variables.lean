/-
Script variables.

A variable holds a string or a number. All variables of a load live in one
flat table; a definition in a script replaces an earlier one of the same name,
a definition by the host does not.

`get?_set_self`, `get?_set_other`: the table is read through these two laws.
`Agrees` says that two tables cannot be told apart by reading them.
-/
import MaterialScript.Decimal.Shortest
import MaterialScript.Journal

namespace MaterialScript

/-- What a variable holds. -/
inductive Value where
  | text (s : String)
  | number (v : Float)

namespace Value

/-- The word for a value's type. -/
def typeName : Value → String
  | text _ => "string"
  | number _ => "number"

/-- A string between double quotes, a number with the fewest digits. -/
def render : Value → String
  | text s => "\"" ++ s ++ "\""
  | number v => Decimal.render v

end Value

/-- A table of variables, each name once. -/
structure Variables where
  entries : List (String × Value)

namespace Variables

def empty : Variables := ⟨[]⟩

/-- The value bound to a name. -/
def get? (vars : Variables) (name : String) : Option Value :=
  vars.entries.lookup name

def contains (vars : Variables) (name : String) : Bool :=
  (vars.get? name).isSome

def size (vars : Variables) : Nat := vars.entries.length

/-- Binds `name` in a list of entries, in its old place if it has one. -/
def bind (name : String) (value : Value) : List (String × Value) → List (String × Value)
  | [] => [(name, value)]
  | (n, v) :: rest => if name = n then (n, value) :: rest else (n, v) :: bind name value rest

/-- Binds or replaces a variable. -/
def set (vars : Variables) (name : String) (value : Value) : Variables :=
  ⟨bind name value vars.entries⟩

theorem lookup_bind_self (name : String) (value : Value) (entries : List (String × Value)) :
    (bind name value entries).lookup name = some value := by
  induction entries with
  | nil => simp [bind]
  | cons e rest ih =>
    obtain ⟨n, v⟩ := e
    by_cases h : name = n
    · simp [bind, h]
    · have hb : (name == n) = false := by simpa using h
      simp [bind, h, List.lookup_cons, hb, ih]

theorem lookup_bind_other {name other : String} (value : Value) (h : other ≠ name)
    (entries : List (String × Value)) :
    (bind name value entries).lookup other = entries.lookup other := by
  have hb : (other == name) = false := by simpa using h
  induction entries with
  | nil => simp [bind, List.lookup_cons, hb]
  | cons e rest ih =>
    obtain ⟨n, v⟩ := e
    by_cases hn : name = n
    · subst hn
      simp [bind, List.lookup_cons, hb]
    · simp [bind, hn, List.lookup_cons, ih]

@[simp] theorem get?_set_self (vars : Variables) (name : String) (value : Value) :
    (vars.set name value).get? name = some value :=
  lookup_bind_self name value vars.entries

theorem get?_set_other (vars : Variables) {name other : String} (value : Value) (h : other ≠ name) :
    (vars.set name value).get? other = vars.get? other :=
  lookup_bind_other value h vars.entries

/-- Tells that `name` is bound to nothing. -/
def unknown (name : String) : Notice := .warning ("Unknown variable named \"" ++ name ++ "\"")

/-- Tells that `name` is bound already. -/
def taken (name : String) : Notice :=
  .error ("Variable \"" ++ name ++ "\" already used in material script")

/-- Tells why `name` has no value of the type asked for. -/
def unsuitable (name : String) (found : Option Value) (expected : String) : Notice :=
  match found with
  | some value =>
    .warning
      ("Variable \"" ++ name ++ "\" is a " ++ value.typeName ++ ", expected a " ++ expected)
  | none => unknown name

/-- The string bound to `name`; without one the empty string, and a warning. -/
def lookupText (vars : Variables) (name : String) : String × Journal :=
  match vars.get? name with
  | some (.text s) => (s, [])
  | found => ("", [unsuitable name found "string"])

/-- The number bound to `name`; without one zero, and a warning. -/
def lookupNumber (vars : Variables) (name : String) : Float × Journal :=
  match vars.get? name with
  | some (.number v) => (v, [])
  | found => (0, [unsuitable name found "number"])

/-- Binds a fresh variable; `none` if the name is taken. -/
def define? (vars : Variables) (name : String) (value : Value) : Option Variables :=
  if vars.contains name then none else some (vars.set name value)

/-- Two tables bind the same values to the same names. -/
def Agrees (v w : Variables) : Prop := ∀ name, v.get? name = w.get? name

theorem Agrees.refl (v : Variables) : v.Agrees v := fun _ => rfl

theorem Agrees.set {v w : Variables} (h : v.Agrees w) (name : String) (value : Value) :
    (v.set name value).Agrees (w.set name value) := by
  intro other
  by_cases hother : other = name
  · subst hother
    rw [get?_set_self, get?_set_self]
  · rw [get?_set_other v value hother, get?_set_other w value hother]
    exact h other

theorem Agrees.contains {v w : Variables} (h : v.Agrees w) (name : String) :
    v.contains name = w.contains name := by
  simp only [Variables.contains, h name]

theorem Agrees.lookupText {v w : Variables} (h : v.Agrees w) (name : String) :
    v.lookupText name = w.lookupText name := by
  simp only [Variables.lookupText, h name]

theorem Agrees.lookupNumber {v w : Variables} (h : v.Agrees w) (name : String) :
    v.lookupNumber name = w.lookupNumber name := by
  simp only [Variables.lookupNumber, h name]

end Variables

end MaterialScript
