/-
Catalogs with an index.

The entries stand in the order of their declaration, as in a `Catalog`. Beside
them an index keeps the place of each name's entry, so that a name is found
without going through the entries. `toCatalog` leaves the index out; that
nothing is lost by it is `Proofs.Catalogs`.
-/
import Std.Data.HashMap
import MaterialScript.Catalog

namespace MaterialScript

/-- Named entries, oldest first, and where each name stands. -/
structure IndexedCatalog (α : Type) where
  entries : Array (String × α)
  /-- The place of a name's entry, counted from zero. -/
  index : Std.HashMap String Nat

namespace IndexedCatalog

variable {α : Type}

def empty : IndexedCatalog α := ⟨#[], ∅⟩

def contains (c : IndexedCatalog α) (name : String) : Bool := c.index.contains name

/-- The entry of a name. -/
def get? (c : IndexedCatalog α) (name : String) : Option α :=
  c.index[name]?.bind fun i => c.entries[i]?.map (·.2)

/-- The names, oldest first. -/
def names (c : IndexedCatalog α) : List String := c.entries.toList.map (·.1)

def size (c : IndexedCatalog α) : Nat := c.entries.size

/-- Adds an entry at the end unless the name is taken; tells whether it did. -/
def insert (name : String) (value : α) (c : IndexedCatalog α) : Bool × IndexedCatalog α :=
  if c.contains name then (false, c)
  else (true, ⟨c.entries.push (name, value), c.index.insert name c.entries.size⟩)

/-- The entry declared last. -/
def current? (c : IndexedCatalog α) : Option (String × α) := c.entries.back?

/-- Changes the entry declared last. -/
def modifyCurrent (f : α → α) (c : IndexedCatalog α) : IndexedCatalog α :=
  { c with entries := c.entries.modify (c.entries.size - 1) fun e => (e.1, f e.2) }

/-- The same entries without the index. -/
def toCatalog (c : IndexedCatalog α) : Catalog α := ⟨c.entries.toList⟩

end IndexedCatalog

end MaterialScript
