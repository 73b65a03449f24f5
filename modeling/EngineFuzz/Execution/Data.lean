import EngineFuzz.Execution.Memory
import EngineFuzz.Wasm.Instr
import EngineFuzz.Wasm.Numeric

/-!
# Instructions on data

What the instructions do that leave control to the next one: they take operands from the stack, may
change a local, a global, a table or a memory, and put their results on the stack.  Integers are bit
vectors of their width here, with an arithmetic of their own.

* `IntBinaryOp.eval`, `IntUnaryOp.eval`, `IntCompareOp.eval`: integer instructions on bit vectors.
* `MachineValue.intBinary` and its kind: numeric instructions on values.
* `Host.call`: what a function of the host does.
* `DataState.apply`: one instruction.
-/

namespace EngineFuzz

/-! ### Integers -/

namespace IntBinaryOp

/-- Division and remainder trap on a divisor of zero, and signed division on the one quotient
that is too large.  Shifts and rotations count modulo the width. -/
def eval {w : Nat} (op : IntBinaryOp) (x y : BitVec w) : Except TrapKind (BitVec w) :=
  let count := y.toNat % w
  match op with
  | add => .ok (x + y)
  | sub => .ok (x - y)
  | mul => .ok (x * y)
  | divS =>
    if y = 0 then .error .integerDivisionByZero
    else if x = BitVec.intMin w ∧ y = BitVec.allOnes w then .error .integerOverflow
    else .ok (x.sdiv y)
  | divU => if y = 0 then .error .integerDivisionByZero else .ok (x / y)
  | remS => if y = 0 then .error .integerDivisionByZero else .ok (x.srem y)
  | remU => if y = 0 then .error .integerDivisionByZero else .ok (x % y)
  | and => .ok (x &&& y)
  | or => .ok (x ||| y)
  | xor => .ok (x ^^^ y)
  | shl => .ok (x <<< count)
  | shrS => .ok (x.sshiftRight count)
  | shrU => .ok (x >>> count)
  | rotl => .ok (x.rotateLeft count)
  | rotr => .ok (x.rotateRight count)

end IntBinaryOp

/-- How many of the `n` lowest bits, read downward from the highest, are zero before a one. -/
def leadingZeros {w : Nat} (x : BitVec w) : Nat → Nat
  | 0 => 0
  | n + 1 => if x.getLsbD n then 0 else leadingZeros x n + 1

/-- How many bits from bit `i` upward are zero before a one, looking at `n` bits. -/
def trailingZeros {w : Nat} (x : BitVec w) (i : Nat) : Nat → Nat
  | 0 => 0
  | n + 1 => if x.getLsbD i then 0 else trailingZeros x (i + 1) n + 1

/-- How many of the `n` lowest bits are ones. -/
def onesCount {w : Nat} (x : BitVec w) : Nat → Nat
  | 0 => 0
  | n + 1 => (x.getLsbD n).toNat + onesCount x n

/-- Zeros before the highest one, zeros behind the lowest one, or ones. -/
def IntUnaryOp.eval {w : Nat} (op : IntUnaryOp) (x : BitVec w) : BitVec w :=
  match op with
  | clz => .ofNat w (leadingZeros x w)
  | ctz => .ofNat w (trailingZeros x 0 w)
  | popcnt => .ofNat w (onesCount x w)

/-- A comparison with or without regard to the sign. -/
def IntCompareOp.eval {w : Nat} (op : IntCompareOp) (x y : BitVec w) : Bool :=
  match op with
  | eq => x == y
  | ne => x != y
  | ltS => x.slt y
  | ltU => x.ult y
  | gtS => y.slt x
  | gtU => y.ult x
  | leS => x.sle y
  | leU => x.ule y
  | geS => y.sle x
  | geU => y.ule x

/-! ### Values -/

/-- Why an instruction has no result. -/
inductive Fault where
  | trap (kind : TrapKind)
  /-- The operands do not have the types that the instruction asks for, or an index is out of
  range.  Code that has been checked never gets here. -/
  | stuck
deriving DecidableEq, Repr, Inhabited

namespace MachineValue

/-- The bits of an integer of a width. -/
def toBits? : (width : Width) → MachineValue → Option (BitVec width.bits)
  | .bits32, i32 n => some n.toBitVec
  | .bits64, i64 n => some n.toBitVec
  | _, _ => none

/-- The integer of a width with these bits. -/
def ofBits : {width : Width} → BitVec width.bits → MachineValue
  | .bits32, x => i32 (.ofBitVec x)
  | .bits64, x => i64 (.ofBitVec x)

/-- The value of a floating-point number of a width. -/
def toDouble? : Width → MachineValue → Option Double
  | .bits32, f32 x => some x.toDoubleKeepingSign
  | .bits64, f64 x => some x
  | _, _ => none

/-- A number rounded to a floating-point type. -/
def ofDouble : Width → Double → MachineValue
  | .bits32, x => f32 (.ofDoubleKeepingSign x)
  | .bits64, x => f64 x

/-- A truth value is the number one or zero. -/
def ofBool (b : Bool) : MachineValue := i32 (if b then 1 else 0)

/-- A result that is there only for operands of the right types. -/
def orStuck {α : Type} : Option α → Except Fault α
  | some a => .ok a
  | none => .error .stuck

/-- An integer instruction with two operands. -/
def intBinary (width : Width) (op : IntBinaryOp) (x y : MachineValue) :
    Except Fault MachineValue := do
  let x ← orStuck (x.toBits? width)
  let y ← orStuck (y.toBits? width)
  return ofBits (← (op.eval x y).mapError Fault.trap)

/-- An integer instruction with one operand. -/
def intUnary (width : Width) (op : IntUnaryOp) (x : MachineValue) : Except Fault MachineValue := do
  return ofBits (op.eval (← orStuck (x.toBits? width)))

/-- Whether an integer is zero. -/
def intEqz (width : Width) (x : MachineValue) : Except Fault MachineValue := do
  return ofBool ((← orStuck (x.toBits? width)) == 0)

/-- A comparison of integers. -/
def intCompare (width : Width) (op : IntCompareOp) (x y : MachineValue) :
    Except Fault MachineValue := do
  return ofBool (op.eval (← orStuck (x.toBits? width)) (← orStuck (y.toBits? width)))

/-- The sign is copied bit by bit, the other instructions round. -/
def floatBinary (width : Width) (op : FloatBinaryOp) (x y : MachineValue) :
    Except Fault MachineValue :=
  match width, op, x, y with
  | .bits32, .copysign, f32 x, f32 y => .ok (f32 (x.copySign y))
  | _, _, _, _ => do
    return ofDouble width (op.eval width (← orStuck (x.toDouble? width))
      (← orStuck (y.toDouble? width)))

/-- The sign is changed bit by bit, the other instructions round. -/
def floatUnary (width : Width) (op : FloatUnaryOp) (x : MachineValue) : Except Fault MachineValue :=
  match width, op, x with
  | .bits32, .abs, f32 x => .ok (f32 x.magnitude)
  | .bits32, .neg, f32 x => .ok (f32 x.negate)
  | _, _, _ => do return ofDouble width (op.eval width (← orStuck (x.toDouble? width)))

/-- A comparison of floating-point numbers, which is exact at both widths. -/
def floatCompare (width : Width) (op : FloatCompareOp) (x y : MachineValue) :
    Except Fault MachineValue := do
  return ofBool (op.eval (← orStuck (x.toDouble? width)) (← orStuck (y.toDouble? width)))

end MachineValue

/-! ### The state -/

/-- A call of a function of the host. -/
structure HostCall where
  name : String
  args : List MachineValue
deriving DecidableEq, Repr, Inhabited

/-- What the functions of a running module share. -/
structure Store where
  memories : List LinearMemory
  tables : List TableState
  globals : List MachineValue
  /-- The calls of functions of the host, the latest first. -/
  hostCalls : List HostCall

/-- What the host does when one of its functions is called: it gives results or traps, and may have
changed what the functions of the module share. -/
def Host : Type :=
  HostCall → FunctionSignature → Store → Except TrapKind (List MachineValue) × Store

namespace Host

/-- A call is noted first, and its results have to be of the types of the signature. -/
def call (host : Host) (call : HostCall) (signature : FunctionSignature) (store : Store) :
    Except Fault (List MachineValue) × Store :=
  let (result, store) := host call signature { store with hostCalls := call :: store.hostCalls }
  match result with
  | .error kind => (.error (.trap kind), store)
  | .ok values =>
    if values.map (·.type) = signature.results then (.ok values, store) else (.error .stuck, store)

/-- The host whose functions give zeros and nulls. -/
def stub : Host := fun _ signature store => (.ok (signature.results.map .zero), store)

end Host

/-- What the instructions on data work on. -/
structure DataState where
  store : Store
  locals : Array MachineValue
  /-- The operand stack, the topmost first. -/
  operands : List MachineValue

namespace DataState

/-- Puts a value on the stack. -/
def push (s : DataState) (value : MachineValue) : DataState :=
  { s with operands := value :: s.operands }

/-- Replaces the topmost operand. -/
def unary (s : DataState) (f : MachineValue → Except Fault MachineValue) : Except Fault DataState :=
  match s.operands with
  | x :: operands => do return { s with operands := (← f x) :: operands }
  | _ => .error .stuck

/-- Replaces the two topmost operands by one. -/
def binary (s : DataState) (f : MachineValue → MachineValue → Except Fault MachineValue) :
    Except Fault DataState :=
  match s.operands with
  | y :: x :: operands => do return { s with operands := (← f x y) :: operands }
  | _ => .error .stuck

/-- Pops a value into a local. -/
def setLocal (s : DataState) (index : Nat) : Except Fault DataState :=
  match s.operands with
  | value :: operands =>
    if h : index < s.locals.size then
      .ok { s with locals := s.locals.set index value h, operands }
    else .error .stuck
  | [] => .error .stuck

/-- Pops a value into a global. -/
def setGlobal (s : DataState) (index : Nat) : Except Fault DataState :=
  match s.operands with
  | value :: operands =>
    if index < s.store.globals.length then
      .ok { s with store := { s.store with globals := s.store.globals.set index value }, operands }
    else .error .stuck
  | [] => .error .stuck

/-- Replaces the place in a table by the reference there. -/
def tableGet (s : DataState) (table : Nat) : Except Fault DataState :=
  match s.operands, s.store.tables[table]? with
  | .i32 place :: operands, some t =>
    match t.get? place.toUInt32.toNat with
    | some value => .ok { s with operands := value :: operands }
    | none => .error (.trap .tableOutOfBounds)
  | _, _ => .error .stuck

/-- Pops a reference into a table. -/
def tableSet (s : DataState) (table : Nat) : Except Fault DataState :=
  match s.operands, s.store.tables[table]? with
  | .reference type target :: .i32 place :: operands, some t =>
    if type ≠ t.element then .error .stuck
    else
      match t.set? place.toUInt32.toNat target with
      | some t =>
        let tables := s.store.tables.set table t
        .ok { s with store := { s.store with tables }, operands }
      | none => .error (.trap .tableOutOfBounds)
  | _, _ => .error .stuck

/-- Reads a number from memory. -/
def loadNumber (s : DataState) (type : WasmType) (offset : UInt64) (memory : Nat) :
    Except Fault DataState :=
  match s.operands, s.store.memories[memory]? with
  | .i32 address :: operands, some m =>
    match m.read? (address.toUInt32.toNat + offset.toNat) type.byteWidth with
    | some bytes => .ok { s with operands := .ofBytes type bytes :: operands }
    | none => .error (.trap .memoryOutOfBounds)
  | _, _ => .error .stuck

/-- Writes a number to memory. -/
def storeNumber (s : DataState) (type : WasmType) (offset : UInt64) (memory : Nat) :
    Except Fault DataState :=
  match s.operands, s.store.memories[memory]? with
  | value :: .i32 address :: operands, some m =>
    if value.type ≠ type then .error .stuck
    else
      match m.write? (address.toUInt32.toNat + offset.toNat) value.toBytes with
      | some m =>
        let memories := s.store.memories.set memory m
        .ok { s with store := { s.store with memories }, operands }
      | none => .error (.trap .memoryOutOfBounds)
  | _, _ => .error .stuck

/-- One instruction.  Those that direct control are not for this function. -/
def apply (s : DataState) : Instr → Except Fault DataState
  | .const value => .ok (s.push (.ofLiteral value.operand))
  | .intBinary width op => s.binary (MachineValue.intBinary width op)
  | .intUnary width op => s.unary (MachineValue.intUnary width op)
  | .intEqz width => s.unary (MachineValue.intEqz width)
  | .intCompare width op => s.binary (MachineValue.intCompare width op)
  | .floatBinary width op => s.binary (MachineValue.floatBinary width op)
  | .floatUnary width op => s.unary (MachineValue.floatUnary width op)
  | .floatCompare width op => s.binary (MachineValue.floatCompare width op)
  | .localGet index => do return s.push (← MachineValue.orStuck s.locals[index]?)
  | .localSet index => s.setLocal index
  | .globalGet index => do return s.push (← MachineValue.orStuck s.store.globals[index]?)
  | .globalSet index => s.setGlobal index
  | .tableGet table => s.tableGet table
  | .tableSet table => s.tableSet table
  | .load type offset memory => s.loadNumber type offset memory
  | .store type offset memory => s.storeNumber type offset memory
  | _ => .error .stuck

end DataState

end EngineFuzz
