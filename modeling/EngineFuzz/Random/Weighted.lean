import EngineFuzz.Config.WeightTable
import EngineFuzz.Random.Draw

/-!
# Weighted choice

Each member of a list has a weight, and a member is chosen with a probability proportional to it.
Weights are added in 32-bit arithmetic.

* `pickByWeight`: the position that a number below the sum of the weights falls on.
* `WeightedList.choose`, `WeightedList.chooseIndexWhere`: random choices.
-/

namespace EngineFuzz

/-- The running sums of weights in 32-bit arithmetic, without the last one. -/
def runningSums (sum : UInt32) : List UInt32 → List UInt32
  | [] | [_] => []
  | w :: rest => (sum + w) :: runningSums (sum + w) rest

/-- Halves a part of the sums, `size` of them from the position `base` on, until one is left, going
to the second half if it starts with a sum of at most `u`. -/
def searchSums (sums : Array UInt32) (u : UInt32) (base size : Nat) : Nat :=
  if size ≤ 1 then base
  else
    let half := size / 2
    searchSums sums u (if u < sums.getD (base + half) 0 then base else base + half) (size - half)
termination_by size

/-- The position of the item that a number falls on: behind the last of the running sums that are
at most `u`.  Where sums have wrapped around and are out of order, the position is the one at which
a search by halving ends. -/
def pickByWeight (u : UInt32) (weights : List UInt32) : Nat :=
  let sums := (runningSums 0 weights).toArray
  let last := searchSums sums u 0 sums.size
  match sums[last]? with
  | some sum => if sum ≤ u then last + 1 else last
  | none => 0

/-- The sum of weights in 32-bit arithmetic. -/
def weightSum (weights : List UInt32) : UInt32 := weights.foldl (· + ·) 0

/-- A position, drawn by weight; none if the sum is 0. -/
def Draw.position? (weights : List UInt32) : Draw (Option Nat) := do
  let total := weightSum weights
  if total = 0 then return none
  return some (pickByWeight (← belowWhole32 total) weights)

/-- Items with weights, which say how often each is drawn. -/
structure WeightedList (α : Type) where
  items : List (α × UInt32)
deriving Repr

namespace WeightedList

variable {α : Type}

/-- The list without items. -/
def empty : WeightedList α := ⟨[]⟩

instance : Inhabited (WeightedList α) := ⟨empty⟩

/-- How many items there are. -/
def size (l : WeightedList α) : Nat := l.items.length

/-- Puts an item at the end. -/
def push (l : WeightedList α) (item : α) (weight : UInt32) : WeightedList α :=
  ⟨l.items ++ [(item, weight)]⟩

/-- The member at a position. -/
def get? (l : WeightedList α) (index : Nat) : Option α := l.items[index]?.map (·.1)

/-- Replaces the member at a position, if there is one. -/
def set (l : WeightedList α) (index : Nat) (item : α) : WeightedList α :=
  ⟨l.items.modify index fun m => (item, m.2)⟩

/-- Takes the weights of a table for the members whose names it has. -/
def reweighted (l : WeightedList α) (table : WeightTable) (nameOf : α → String) :
    WeightedList α :=
  ⟨l.items.map fun (item, weight) => (item, (table.weight? (nameOf item)).getD weight)⟩

/-- The members that pass a test. -/
def filter (l : WeightedList α) (keep : α → Bool) : WeightedList α :=
  ⟨l.items.filter fun m => keep m.1⟩

/-- A member, drawn by weight; none if all weights are 0. -/
def choose (l : WeightedList α) : Draw (Option α) := do
  return (← Draw.position? (l.items.map (·.2))).bind l.get?

/-- The positions with a positive weight whose members pass a test, with their weights. -/
def eligible (l : WeightedList α) (accept : Nat → α → Bool) : List (Nat × UInt32) :=
  (l.items.mapIdx fun index (item, weight) => (index, item, weight)).filterMap
    fun (index, item, weight) =>
      if weight > 0 && accept index item then some (index, weight) else none

/-- A position among those that pass a test, drawn by weight. -/
def chooseIndexWhere (l : WeightedList α) (accept : Nat → α → Bool) : Draw (Option Nat) := do
  let candidates := l.eligible accept
  return (← Draw.position? (candidates.map (·.2))).bind fun p => candidates[p]?.map (·.1)

end WeightedList

end EngineFuzz
