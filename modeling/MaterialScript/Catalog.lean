/-
Catalogs: named resources in the order of their declaration.

The entry declared last is the current one; the lines of an open block change
it in place. A name that is taken keeps its entry.
-/
namespace MaterialScript

/-- Named entries, oldest first. -/
structure Catalog (α : Type) where
  entries : List (String × α)

namespace Catalog

variable {α : Type}

def empty : Catalog α := ⟨[]⟩

/-- The entry of a name. -/
def get? (c : Catalog α) (name : String) : Option α := c.entries.lookup name

def contains (c : Catalog α) (name : String) : Bool := (c.get? name).isSome

/-- The names, oldest first. -/
def names (c : Catalog α) : List String := c.entries.map (·.1)

def size (c : Catalog α) : Nat := c.entries.length

/-- Adds an entry at the end; `none` if the name is taken. -/
def insert? (c : Catalog α) (name : String) (value : α) : Option (Catalog α) :=
  if c.contains name then none else some ⟨c.entries ++ [(name, value)]⟩

/-- Adds an entry at the end unless the name is taken. -/
def insert (c : Catalog α) (name : String) (value : α) : Catalog α :=
  (c.insert? name value).getD c

/-- The entry declared last. -/
def current? (c : Catalog α) : Option (String × α) := c.entries.getLast?

/-- Changes the last of a list of entries. -/
def changeLast (f : α → α) : List (String × α) → List (String × α)
  | [] => []
  | [(name, value)] => [(name, f value)]
  | e :: e' :: rest => e :: changeLast f (e' :: rest)

/-- Changes the entry declared last. -/
def modifyCurrent (f : α → α) (c : Catalog α) : Catalog α := ⟨changeLast f c.entries⟩

theorem isSome_lookup_iff (entries : List (String × α)) (name : String) :
    (entries.lookup name).isSome ↔ name ∈ entries.map (·.1) := by
  induction entries with
  | nil => simp
  | cons e rest ih =>
    obtain ⟨n, value⟩ := e
    by_cases h : name = n
    · simp [h]
    · have hb : (name == n) = false := by simpa using h
      simp [List.lookup_cons, hb, h, ih]

/-- Where no name is taken twice, a look-up finds all entries. -/
theorem lookup_eq_some_iff_mem {entries : List (String × α)} (h : (entries.map (·.1)).Nodup)
    (name : String) (value : α) : entries.lookup name = some value ↔ (name, value) ∈ entries := by
  rw [List.lookup_eq_some_iff]
  constructor
  · rintro ⟨front, back, rfl, -⟩
    simp
  · intro hmem
    obtain ⟨front, back, rfl⟩ := List.append_of_mem hmem
    refine ⟨front, back, rfl, fun e he => ?_⟩
    rw [List.map_append, List.nodup_append] at h
    simpa using (h.2.2 e.1 (List.mem_map_of_mem he) name (by simp)).symm

theorem contains_iff (c : Catalog α) (name : String) : c.contains name ↔ name ∈ c.names :=
  isSome_lookup_iff c.entries name

theorem changeLast_append (f : α → α) (front : List (String × α)) (name : String) (value : α) :
    changeLast f (front ++ [(name, value)]) = front ++ [(name, f value)] := by
  induction front with
  | nil => rfl
  | cons e rest ih =>
    cases rest with
    | nil => rfl
    | cons e' rest => simpa [changeLast] using ih

/-- Changing the current entry keeps every name in its place. -/
@[simp] theorem names_modifyCurrent (f : α → α) (c : Catalog α) :
    (c.modifyCurrent f).names = c.names := by
  obtain ⟨entries⟩ := c
  simp only [names, modifyCurrent]
  fun_induction changeLast f entries <;> simp_all

end Catalog

end MaterialScript
