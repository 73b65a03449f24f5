import Std.Data.TreeMap
import EngineFuzz.Binary.Codec
import EngineFuzz.Wasm.Type

/-!
# Values, memories and tables

What a running module works on.  References are told apart by what they refer to.  A memory is a
number of pages, all zero at first, and a table is a number of references, all null at first; what
has been written is kept in a map, so that a large one costs nothing until it is used.  Numbers lie
in memory with the least byte first.

* `MachineValue`: an operand of an instruction.
* `LinearMemory.read?`, `LinearMemory.write?`: accesses to memory, which fail past the end.
* `TableState.get?`, `TableState.set?`: accesses to a table.
* `MachineValue.toBytes`, `MachineValue.ofBytes`: a number as bytes.
-/

namespace EngineFuzz

/-! ### Values -/

/-- A value of a running module. -/
inductive MachineValue where
  | i32 (value : Int32)
  | i64 (value : Int64)
  | f32 (value : Single)
  | f64 (value : Double)
  /-- A reference of a type, with the number of what it refers to; null refers to nothing. -/
  | reference (type : WasmType) (target : Option Nat)
deriving DecidableEq, Repr, Inhabited

namespace WasmLiteral

/-- The literal as an operand; the null reference counts as one of the types of references. -/
def operand : WasmLiteral → WasmLiteral
  | nullRef t => nullRef t.asReference
  | value => value

end WasmLiteral

namespace MachineValue

/-- The type of the value. -/
def type : MachineValue → WasmType
  | i32 _ => .i32
  | i64 _ => .i64
  | f32 _ => .f32
  | f64 _ => .f64
  | reference t _ => t

/-- The value of a literal. -/
def ofLiteral : WasmLiteral → MachineValue
  | .i32 v => i32 v
  | .i64 v => i64 v
  | .f32 v => f32 v
  | .f64 v => f64 v
  | .nullRef t => reference t none

/-- Zero, or null. -/
def zero (type : WasmType) : MachineValue := ofLiteral (.zero type)

end MachineValue

/-! ### Memories -/

/-- A memory. -/
structure LinearMemory where
  pages : Nat
  /-- The bytes that have been written, by their addresses. -/
  written : Std.TreeMap Nat UInt8

namespace LinearMemory

/-- How many bytes a page has. -/
def pageSize : Nat := 65536

/-- A memory full of zeros. -/
def blank (pages : Nat) : LinearMemory := ⟨pages, {}⟩

/-- How many bytes the memory has. -/
def size (m : LinearMemory) : Nat := m.pages * pageSize

/-- The byte at an address; one that has not been written is zero. -/
def byteAt (m : LinearMemory) (address : Nat) : UInt8 := m.written.getD address 0

/-- The bytes from an address on. -/
def bytesAt (m : LinearMemory) (address : Nat) : Nat → List UInt8
  | 0 => []
  | count + 1 => m.byteAt address :: m.bytesAt (address + 1) count

/-- Puts bytes at an address and those after it. -/
def put (m : LinearMemory) (address : Nat) : List UInt8 → LinearMemory
  | [] => m
  | b :: rest => put { m with written := m.written.insert address b } (address + 1) rest

/-- Some bytes from an address on, if all of them lie in the memory. -/
def read? (m : LinearMemory) (address count : Nat) : Option (List UInt8) :=
  if address + count ≤ m.size then some (m.bytesAt address count) else none

/-- The memory with bytes put at an address, if there is room for all of them. -/
def write? (m : LinearMemory) (address : Nat) (bytes : List UInt8) : Option LinearMemory :=
  if address + bytes.length ≤ m.size then some (m.put address bytes) else none

/-- As many bytes are read as are asked for. -/
theorem length_bytesAt (m : LinearMemory) (address count : Nat) :
    (m.bytesAt address count).length = count := by
  induction count generalizing address with
  | zero => rfl
  | succ count ih => simp [bytesAt, ih]

/-- Writing does not change the size. -/
theorem size_put (m : LinearMemory) (address : Nat) (bytes : List UInt8) :
    (m.put address bytes).size = m.size := by
  induction bytes generalizing m address with
  | nil => rfl
  | cons b rest ih => rw [put, ih]; rfl

end LinearMemory

namespace MachineValue

/-- The bytes of a number; references have none. -/
def toBytes : MachineValue → List UInt8
  | i32 v => littleEndian 4 v.toUInt32.toNat
  | i64 v => littleEndian 8 v.toUInt64.toNat
  | f32 v => littleEndian 4 v.bits.toNat
  | f64 v => littleEndian 8 v.bits.toNat
  | reference .. => []

/-- The value of a type that some bytes hold. -/
def ofBytes (type : WasmType) (bytes : List UInt8) : MachineValue :=
  let word := fromLittleEndian bytes
  match type with
  | .i32 => i32 (.ofNat word)
  | .i64 => i64 (.ofNat word)
  | .f32 => f32 (.ofWord word)
  | .f64 => f64 (.ofWord word)
  | .externRef => reference .externRef none
  | .funcRef => reference .funcRef none

end MachineValue

/-! ### Tables -/

/-- A table. -/
structure TableState where
  element : WasmType
  size : Nat
  /-- What the references refer to that have been written, by their places. -/
  written : Std.TreeMap Nat (Option Nat)

namespace TableState

/-- A table full of null references. -/
def blank (element : WasmType) (size : Nat) : TableState := ⟨element, size, {}⟩

/-- The reference at a place, if the table reaches so far; one that has not been written is null. -/
def get? (t : TableState) (place : Nat) : Option MachineValue :=
  if place < t.size then some (.reference t.element (t.written.getD place none)) else none

/-- The table with a reference put at a place, if it reaches so far. -/
def set? (t : TableState) (place : Nat) (target : Option Nat) : Option TableState :=
  if place < t.size then some { t with written := t.written.insert place target } else none

end TableState

end EngineFuzz
