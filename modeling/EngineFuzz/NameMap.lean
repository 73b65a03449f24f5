/-!
# Tables sorted by name

A table from names to values as a list in the order of the names.

* `NameMap.insert`: keeps the order and replaces the value of a name that is there.
* `NameMap.find?`: the value of a name.
-/

namespace EngineFuzz

/-- Names with values, in increasing order of the names. -/
structure NameMap (α : Type) where
  entries : List (String × α)
deriving Repr, DecidableEq

namespace NameMap

variable {α : Type}

/-- The map without entries. -/
def empty : NameMap α := ⟨[]⟩

instance : Inhabited (NameMap α) := ⟨empty⟩

/-- Puts an entry in its place; the value of an equal name is replaced. -/
def insertEntry (name : String) (value : α) : List (String × α) → List (String × α)
  | [] => [(name, value)]
  | (n, v) :: rest =>
    if name = n then (name, value) :: rest
    else if name < n then (name, value) :: (n, v) :: rest
    else (n, v) :: insertEntry name value rest

/-- Gives a name a value. -/
def insert (m : NameMap α) (name : String) (value : α) : NameMap α :=
  ⟨insertEntry name value m.entries⟩

/-- The map of a list in which the last value of a name counts. -/
def ofList (entries : List (String × α)) : NameMap α :=
  entries.foldl (fun m (name, value) => m.insert name value) empty

/-- The value of a name. -/
def find? (m : NameMap α) (name : String) : Option α :=
  (m.entries.find? fun e => e.1 == name).map (·.2)

/-- The names in their order. -/
def names (m : NameMap α) : List String := m.entries.map (·.1)

end NameMap

end EngineFuzz
