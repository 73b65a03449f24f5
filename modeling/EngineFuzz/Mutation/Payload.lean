import EngineFuzz.Generation.ScriptCode

/-!
# Changes of payloads

A literal, an operator or a name in an operation is replaced by a random one.  The new operation
has the operands of the old one, and it is used only if its outputs have the same types.

* `Operation.hasPayload`: whether there is something to replace.
* `Mutation.withOtherPayload`: a variant of an operation.
-/

namespace EngineFuzz

/-- Whether the operation has a payload that can be replaced. -/
def Operation.hasPayload : Operation → Bool
  | loadInteger _ | loadBigInt _ | loadFloat _ | loadString _ | loadBoolean _ | loadRegExp ..
  | loadBuiltin _ | createObject _ | getProperty _ | setProperty _ | deleteProperty _
  | getElement _ | setElement _ | callFunction .. | callMethod .. | binaryOperation _
  | unaryOperation _ | compare _ | beginRepeatLoop _ | createWasmGlobal .. | wasmDefineGlobal ..
  | wasmConst _ | wasmIntBinary .. | wasmIntUnary .. | wasmIntCompare .. | wasmFloatBinary ..
  | wasmFloatUnary .. | wasmFloatCompare .. | wasmMemoryLoad .. | wasmMemoryStore .. => true
  | _ => false

namespace Mutation

open Build

/-- The greatest offset of a memory access. -/
def mostOffset : Nat := 16

/-- Whether one of the variables is a BigInt. -/
def anyBigInt (vs : List Variable) : Build Bool :=
  look fun b => vs.any fun v => b.typeOf v == .bigInt

/-- An expression with another pattern or with other flags. -/
def otherRegExp (pattern flags : String) : Build (Option Operation) := do
  let e ← environment
  if ← Draw.chance 50 then
    return (← Draw.choose e.regExpPatterns).map (.loadRegExp · flags)
  else return (← Draw.choose e.regExpFlags).map (.loadRegExp pattern ·)

/-- One of the names is replaced by a name that is not among them. -/
def otherPropertyNames (names : List String) : Build (Option Operation) := do
  let replacement ← randomPropertyName
  if names.isEmpty || names.contains replacement then return none
  let slot ← Draw.nat64 0 (names.length - 1)
  return some (.createObject (names.set slot replacement))

/-- An unsigned shift is not defined for BigInts. -/
def otherBinaryOperator (inputs : List Variable) : Build (Option Operation) := do
  let op ← Draw.chooseMember BinaryOperator
  if op = .unRShift && (← anyBigInt inputs) then return none
  return some (.binaryOperation op)

/-- A unary plus is not defined for BigInts. -/
def otherUnaryOperator (inputs : List Variable) : Build (Option Operation) := do
  let op ← Draw.chooseMember UnaryOperator
  if op = .plus && (← anyBigInt inputs) then return none
  return some (.unaryOperation op)

/-- Another method of the receiver. -/
def otherMethod (numArgs : UInt64) (guarded : Bool) (inputs : List Variable) :
    Build (Option Operation) := do
  match inputs.head? with
  | none => return none
  | some object => return some (.callMethod (← randomMethodName object) numArgs guarded)

/-- A script operation with another payload, if there is one. -/
def otherScriptPayload (op : Operation) (inputs : List Variable) : Build (Option Operation) := do
  match op with
  | .loadInteger _ => return some (.loadInteger (Int64.ofInt (← randomInteger)))
  | .loadBigInt _ => return some (.loadBigInt (Int64.ofInt (← randomInteger)))
  | .loadFloat _ => return some (.loadFloat (← randomFloat))
  | .loadString _ => return some (.loadString (← randomString))
  | .loadBoolean b => return some (.loadBoolean !b)
  | .loadRegExp pattern flags => otherRegExp pattern flags
  | .loadBuiltin _ => return some (.loadBuiltin (← randomBuiltin))
  | .createObject names => otherPropertyNames names
  | .getProperty _ => return some (.getProperty (← randomPropertyName))
  | .setProperty _ => return some (.setProperty (← randomPropertyName))
  | .deleteProperty _ => return some (.deleteProperty (← randomPropertyName))
  | .getElement _ => return some (.getElement (← Generate.randomIndex 80))
  | .setElement _ => return some (.setElement (← Generate.randomIndex 80))
  | .callFunction numArgs guarded => return some (.callFunction numArgs !guarded)
  | .callMethod _ numArgs guarded => otherMethod numArgs guarded inputs
  | .binaryOperation _ => otherBinaryOperator inputs
  | .unaryOperation _ => otherUnaryOperator inputs
  | .compare _ => return some (.compare (← Draw.chooseMember Comparator))
  | .beginRepeatLoop _ => return some (.beginRepeatLoop (← Draw.chooseD Generate.loopCounts 10))
  | _ => return none

/-- A WebAssembly operation with another payload, if there is one. -/
def otherWasmPayload (op : Operation) : Build (Option Operation) := do
  match op with
  | .createWasmGlobal v isMutable =>
    return some (.createWasmGlobal (← randomLiteral v.type) isMutable)
  | .wasmDefineGlobal v isMutable =>
    return some (.wasmDefineGlobal (← randomLiteral v.type) isMutable)
  | .wasmConst v => return some (.wasmConst (← randomLiteral v.type))
  | .wasmIntBinary width _ =>
    return some (.wasmIntBinary width (← Draw.chooseMember IntBinaryOp))
  | .wasmIntUnary width _ => return some (.wasmIntUnary width (← Draw.chooseMember IntUnaryOp))
  | .wasmIntCompare width _ =>
    return some (.wasmIntCompare width (← Draw.chooseMember IntCompareOp))
  | .wasmFloatBinary width _ =>
    return some (.wasmFloatBinary width (← Draw.chooseMember FloatBinaryOp))
  | .wasmFloatUnary width _ =>
    return some (.wasmFloatUnary width (← Draw.chooseMember FloatUnaryOp))
  | .wasmFloatCompare width _ =>
    return some (.wasmFloatCompare width (← Draw.chooseMember FloatCompareOp))
  | .wasmMemoryLoad type _ =>
    return some (.wasmMemoryLoad type (← Draw.nat64 0 mostOffset).toUInt64)
  | .wasmMemoryStore type _ =>
    return some (.wasmMemoryStore type (← Draw.nat64 0 mostOffset).toUInt64)
  | _ => return none

/-- An operation with another payload, if there is one. -/
def otherPayload (op : Operation) (inputs : List Variable) : Build (Option Operation) := do
  match ← otherScriptPayload op inputs with
  | some changed => return some changed
  | none => otherWasmPayload op

/-- Adopts an instruction with another payload, unless the types of its outputs would change. -/
def changePayload (i : Instruction) : Build Unit := do
  let inputs ← adoptedInputs i
  match ← otherPayload i.operation inputs with
  | none => adoptAs i i.operation inputs
  | some changed =>
    let same ← look fun b =>
      b.typer.outputTypes changed inputs == b.typer.outputTypes i.operation inputs
    adoptAs i (if same then changed else i.operation) inputs

end Mutation

end EngineFuzz
