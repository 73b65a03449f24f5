import EngineFuzz.Json.Value
import EngineFuzz.NameMap

/-!
# Weight tables

The built-in weights of one kind of component, by name.

* `WeightTable.override`: replaces weights; a name that is not in the table is an error.
-/

namespace EngineFuzz

/-- Names with weights, in a fixed order. -/
structure WeightTable where
  /-- What the names name, for messages. -/
  kind : String
  entries : List (String × UInt32)
deriving DecidableEq, Repr

/-- Why weights cannot be replaced. -/
structure UnknownName where
  kind : String
  name : String
deriving DecidableEq, Repr

/-- The wording of the error. -/
def UnknownName.message (e : UnknownName) : String :=
  "unknown " ++ e.kind ++ " name '" ++ e.name ++ "'"

namespace WeightTable

/-- Gives the first entry of a name a new weight; none if there is no such entry. -/
def replace? (name : String) (weight : UInt32) :
    List (String × UInt32) → Option (List (String × UInt32))
  | [] => none
  | (n, w) :: rest =>
    if n = name then some ((n, weight) :: rest) else (replace? name weight rest).map ((n, w) :: ·)

/-- Replaces weights one after the other.  The table that was reached is the result also when a
name is unknown. -/
def overrideEach (t : WeightTable) : List (String × UInt32) → WeightTable × Option UnknownName
  | [] => (t, none)
  | (name, weight) :: rest =>
    match replace? name weight t.entries with
    | none => (t, some ⟨t.kind, name⟩)
    | some entries => overrideEach { t with entries } rest

/-- Replaces weights in the order of their names. -/
def override (t : WeightTable) (weights : NameMap UInt32) : WeightTable × Option UnknownName :=
  t.overrideEach weights.entries

/-- The weight of a name. -/
def weight? (t : WeightTable) (name : String) : Option UInt32 :=
  (t.entries.find? fun e => e.1 == name).map (·.2)

/-- The exact sum of the weights, in 64 bits. -/
def total (t : WeightTable) : UInt64 := t.entries.foldl (fun n e => n + e.2.toUInt64) 0

/-- How many names there are. -/
def size (t : WeightTable) : Nat := t.entries.length

/-- The table with its kind and its entries as pairs. -/
def toJson (t : WeightTable) : Json :=
  .object [("kind", .string t.kind),
    ("entries", .ofList (fun (name, weight) => .array [.string name, .ofNat weight.toNat])
      t.entries)]

end WeightTable

end EngineFuzz
