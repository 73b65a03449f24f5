import EngineFuzz.Generation.WasmUse

/-!
# Generators of function bodies

Operands are values of the type that the operation takes; addresses and indices are mostly within
bounds.
-/

namespace EngineFuzz.Generate

open Build

/-- How many bytes a page of memory has. -/
def pageSize : Nat := 65536

/-- Either width, with equal chances. -/
def randomWidth : Build Width := do
  if ← Draw.chance 50 then return .bits32 else return .bits64

/-- Two values of a type. -/
def wasmPair (type : WasmType) : Build (List Variable) := do
  let lhs ← wasmValueOf type
  return [lhs, ← wasmValueOf type]

/-- A random constant of a numeric type. -/
def wasmConst : Build Unit := do
  let type ← randomNumericType
  let _ ← value (.wasmConst (← randomLiteral type)) []

/-! ### Arithmetic -/

/-- A binary operation on integers of either width. -/
def wasmIntBinary : Build Unit := do
  let width ← randomWidth
  let op ← Draw.chooseMember IntBinaryOp
  let _ ← value (.wasmIntBinary width op) (← wasmPair width.intType)

/-- A unary operation on an integer of either width. -/
def wasmIntUnary : Build Unit := do
  let width ← randomWidth
  let op ← Draw.chooseMember IntUnaryOp
  let _ ← value (.wasmIntUnary width op) [← wasmValueOf width.intType]

/-- A test for zero. -/
def wasmIntEqz : Build Unit := do
  let width ← randomWidth
  let _ ← value (.wasmIntEqz width) [← wasmValueOf width.intType]

/-- A comparison of integers. -/
def wasmIntCompare : Build Unit := do
  let width ← randomWidth
  let op ← Draw.chooseMember IntCompareOp
  let _ ← value (.wasmIntCompare width op) (← wasmPair width.intType)

/-- A binary operation on floating-point numbers of either width. -/
def wasmFloatBinary : Build Unit := do
  let width ← randomWidth
  let op ← Draw.chooseMember FloatBinaryOp
  let _ ← value (.wasmFloatBinary width op) (← wasmPair width.floatType)

/-- A unary operation on a floating-point number of either width. -/
def wasmFloatUnary : Build Unit := do
  let width ← randomWidth
  let op ← Draw.chooseMember FloatUnaryOp
  let _ ← value (.wasmFloatUnary width op) [← wasmValueOf width.floatType]

/-- A comparison of floating-point numbers. -/
def wasmFloatCompare : Build Unit := do
  let width ← randomWidth
  let op ← Draw.chooseMember FloatCompareOp
  let _ ← value (.wasmFloatCompare width op) (← wasmPair width.floatType)

/-! ### Globals, tables and memories -/

/-- Reads a global. -/
def wasmGlobalLoad (global : Variable) : Build Unit := do
  let _ ← value .wasmLoadGlobal [global]

/-- Writes a value of the right type to a global. -/
def wasmGlobalStore (global : Variable) : Build Unit := do
  if let .wasmEntity (.global type _) ← typeOf global then
    perform .wasmStoreGlobal [global, ← wasmValueOf type]

/-- An index that is mostly below a bound. -/
def indexBelow (bound : Nat) : Build Variable := do
  if ← Draw.chance 90 then
    let index ← Draw.nat64 0 (max bound 1 - 1)
    wasmInteger (min index 0x7fffffff)
  else wasmValueOf .i32

/-- Reads an element of a table. -/
def wasmTableGet (table : Variable) : Build Unit := do
  if let .wasmEntity (.table _ minimum _) ← typeOf table then
    let _ ← value .wasmTableGet [table, ← indexBelow minimum.toNat]

/-- Writes a reference of the right type to a table. -/
def wasmTableSet (table : Variable) : Build Unit := do
  if let .wasmEntity (.table element minimum _) ← typeOf table then
    let index ← indexBelow minimum.toNat
    perform .wasmTableSet [table, index, ← wasmValueOf element]

/-- An address and an offset, mostly within the first pages. -/
def memoryOperands (memory : Variable) (type : WasmType) : Build (Variable × UInt64) := do
  let pages : Nat :=
    match ← typeOf memory with
    | .wasmEntity (.memory minimum _ _) => minimum.toNat
    | _ => 0
  let offset ← if ← Draw.chance 80 then pure 0 else (Draw.nat64 0 16 : Build Nat)
  let address ← indexBelow (pages * pageSize - (offset + type.byteWidth))
  return (address, offset.toUInt64)

/-- Reads a number from a memory. -/
def wasmMemoryLoad (memory : Variable) : Build Unit := do
  let type ← randomNumericType
  let (address, offset) ← memoryOperands memory type
  let _ ← value (.wasmMemoryLoad type offset) [memory, address]

/-- Writes a number to a memory. -/
def wasmMemoryStore (memory : Variable) : Build Unit := do
  let type ← randomNumericType
  let (address, offset) ← memoryOperands memory type
  perform (.wasmMemoryStore type offset) [memory, address, ← wasmValueOf type]

/-! ### Calls and control flow -/

/-- Calls a function of the module with operands of the right types. -/
def wasmFunctionCall (function : Variable) : Build Unit := do
  if let .wasmEntity (.function signature) ← typeOf function then
    let _ ← Build.wasmCall function (← signature.params.mapM wasmValueOf)

/-- Gives a local another value of its type. -/
def wasmReassign (target : Variable) : Build Unit := assignSameType .wasmReassign target

/-- Nested code in a block. -/
def wasmBlockCode (nested : Build Unit) : Build Unit := Build.wasmBlock fun _ => nested

/-- Nested code in a loop that ends. -/
def wasmLoopCode (nested : Build Unit) : Build Unit := countedLoop nested

/-- Nested code under a condition, half of the time with an alternative. -/
def wasmIfCode (nested : Build Unit) : Build Unit := do
  let condition ← wasmValueOf .i32
  if ← Draw.chance 50 then wasmIfElse condition (fun _ => nested) fun _ _ => nested
  else Build.wasmIf condition fun _ => nested

/-- A branch to a label. -/
def wasmBranch (label : Variable) : Build Unit := perform .wasmBranch [label]

/-- A branch to a label under a condition. -/
def wasmBranchIf (label : Variable) : Build Unit := do
  perform .wasmBranchIf [label, ← wasmValueOf .i32]

/-- Returns a value of the result type of the function around the position. -/
def wasmReturn : Build Unit := do
  match ← look (·.scopes.currentFunction?) with
  | some signature => wasmGiveBack (← resultFor signature)
  | none => wasmGiveBack none

/-- A trap. -/
def wasmUnreachable : Build Unit := perform .wasmUnreachable []

end EngineFuzz.Generate
