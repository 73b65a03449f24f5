/-!
# Little-endian binary data

Writers turn a value into bytes; readers take a value off the front of a list of bytes and leave
the rest.  Numbers have a fixed width with the least byte first; lengths are 64-bit numbers in
front of what they count.
-/

namespace EngineFuzz

/-- Takes a value off the front of some bytes, or fails. -/
abbrev ByteReader := StateT (List UInt8) Option

/-- The last `count` bytes of a natural, least first. -/
def littleEndian : Nat → Nat → List UInt8
  | 0, _ => []
  | count + 1, n => n.toUInt8 :: littleEndian count (n / 256)

/-- The natural that some bytes give, least first. -/
def fromLittleEndian : List UInt8 → Nat
  | [] => 0
  | low :: high => low.toNat + 256 * fromLittleEndian high

/-- The number of bytes is the number that was asked for. -/
theorem length_littleEndian (count n : Nat) : (littleEndian count n).length = count := by
  induction count generalizing n with
  | zero => rfl
  | succ count ih => simp [littleEndian, ih]

namespace ByteReader

/-- One byte. -/
def byte : ByteReader UInt8 := fun bytes =>
  match bytes with
  | [] => none
  | b :: rest => some (b, rest)

/-- A natural of `count` bytes, least first. -/
def littleEndian : Nat → ByteReader Nat
  | 0 => pure 0
  | count + 1 => do
    let low ← byte
    let high ← littleEndian count
    return low.toNat + 256 * high

/-- The same reader `count` times. -/
def replicate {α : Type} (reader : ByteReader α) : Nat → ByteReader (List α)
  | 0 => pure []
  | count + 1 => do
    let first ← reader
    let rest ← replicate reader count
    return first :: rest

/-- A 32-bit word. -/
def word : ByteReader UInt32 := do return (← littleEndian 4).toUInt32

/-- A 64-bit word. -/
def doubleWord : ByteReader UInt64 := do return (← littleEndian 8).toUInt64

/-- A truth value is the byte 0 or 1. -/
def flag : ByteReader Bool := do
  match (← byte) with
  | 0 => return false
  | 1 => return true
  | _ => failure

/-- A part that may be missing follows the byte 1; its absence is the byte 0. -/
def optional {α : Type} (reader : ByteReader α) : ByteReader (Option α) := do
  if (← flag) then return some (← reader) else return none

/-- A length and as many items. -/
def list {α : Type} (reader : ByteReader α) : ByteReader (List α) := do
  replicate reader (← doubleWord).toNat

/-- A length and as many bytes of UTF-8. -/
def text : ByteReader String := do
  let bytes ← list byte
  match String.fromUTF8? ⟨bytes.toArray⟩ with
  | some s => return s
  | none => failure

end ByteReader

namespace ByteWriter

/-- A 32-bit word. -/
def word (n : UInt32) : List UInt8 := littleEndian 4 n.toNat

/-- A 64-bit word. -/
def doubleWord (n : UInt64) : List UInt8 := littleEndian 8 n.toNat

/-- A truth value. -/
def flag (b : Bool) : List UInt8 := [if b then 1 else 0]

/-- A part that may be missing, behind the byte that says whether it is there. -/
def optional {α : Type} (writer : α → List UInt8) : Option α → List UInt8
  | none => flag false
  | some a => flag true ++ writer a

/-- The number of items and the items. -/
def list {α : Type} (writer : α → List UInt8) (items : List α) : List UInt8 :=
  doubleWord items.length.toUInt64 ++ items.flatMap writer

/-- The number of bytes in UTF-8 and the bytes. -/
def text (s : String) : List UInt8 := list ([·]) s.toUTF8.toList

end ByteWriter

end EngineFuzz
