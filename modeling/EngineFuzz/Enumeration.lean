/-!
# Finite enumerations with names

Operators, widths and value types are finite sets whose members have a name in texts and a number
in the binary format, which is the position in the list of all members.
-/

namespace EngineFuzz

/-- A finite type with its members in order and their names. -/
class Enumeration (α : Type) where
  all : List α
  name : α → String

namespace Enumeration

variable {α : Type} [Enumeration α]

/-- The names in order. -/
def names (α : Type) [Enumeration α] : List String := (all : List α).map name

/-- The member with a name. -/
def ofName? (s : String) : Option α := all.find? fun a => name a == s

/-- The member at a position. -/
def ofIndex? (i : Nat) : Option α := (all : List α)[i]?

/-- The position of a member. -/
def index [BEq α] (a : α) : Nat := (all : List α).idxOf a

end Enumeration

end EngineFuzz
