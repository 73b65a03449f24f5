import EngineFuzz.Analysis.Typer
import EngineFuzz.Lift.Error
import EngineFuzz.Wasm.Instr

/-!
# Lowering function bodies

Every variable of a function body that holds a value becomes a local.  An instruction reads its
operands from locals and stores its result in one, so that the operand stack is empty between
instructions.  Labels become branch depths, counted in the blocks that are open.

* `Lowering.instruction`: the code of one instruction.
* `Lowering.function`: the body of a function.
-/

namespace EngineFuzz

/-- The state while a function body is lowered. -/
structure Lowering where
  /-- The local of each variable, the latest first. -/
  locals : List (Variable × Nat)
  numParams : Nat
  /-- The types of the locals after the parameters, the latest first. -/
  localTypes : List WasmType
  /-- The labels of the open blocks, the innermost first. -/
  labels : List Variable
  /-- The code so far, the latest instruction first. -/
  code : List Instr
deriving DecidableEq, Repr

/-- The entities and types that the body of a function refers to. -/
structure LoweringContext where
  typer : Typer
  layout : ModuleLayout

namespace Lowering

/-- The state at the beginning of a function with these parameters. -/
def start (params : List Variable) : Lowering where
  locals := params.zipIdx.reverse
  numParams := params.length
  localTypes := []
  labels := []
  code := []

/-- Appends one instruction. -/
def emit (s : Lowering) (i : Instr) : Lowering := { s with code := i :: s.code }

/-- The local of a variable. -/
def localOf (s : Lowering) (v : Variable) : Except LiftError Nat :=
  match s.locals.find? fun p => p.1 == v with
  | some (_, index) => .ok index
  | none => .error (.notLocal v)

/-- Pushes the value of a variable. -/
def get (s : Lowering) (v : Variable) : Except LiftError Lowering := do
  return s.emit (.localGet (← s.localOf v))

/-- Pushes the values of several variables, in order. -/
def getAll (s : Lowering) (vs : List Variable) : Except LiftError Lowering := vs.foldlM get s

/-- Makes a local for a variable and pops a value into it. -/
def set (context : LoweringContext) (s : Lowering) (v : Variable) : Except LiftError Lowering :=
  match (context.typer.typeOf v).wasmType? with
  | none => .error (.noWasmType v)
  | some type =>
    let index := s.numParams + s.localTypes.length
    .ok ({ s with
      localTypes := type :: s.localTypes
      locals := (v, index) :: s.locals }.emit (.localSet index))

/-- Makes a local for the output of an instruction and pops a value into it. -/
def setOutput (context : LoweringContext) (s : Lowering) (i : Instruction) :
    Except LiftError Lowering :=
  match i.output? with
  | none => .error (.noOutput i.operation)
  | some v => s.set context v

/-- The index of an entity of the module. -/
def entity (context : LoweringContext) (v : Variable) : Except LiftError Nat :=
  match context.layout.indexOf? v with
  | some index => .ok index
  | none => .error (.notEntity v)

/-- How many open blocks a branch to a label leaves. -/
def depthOf (s : Lowering) (label : Variable) : Except LiftError Nat :=
  match s.labels.findIdx? fun l => l == label with
  | some depth => .ok depth
  | none => .error (.notOpenLabel label)

/-- Opens a block whose label is the inner output of an instruction. -/
def openBlock (s : Lowering) (i : Instruction) (instr : Instr) : Except LiftError Lowering :=
  match i.innerOutputs.head? with
  | none => .error (.noLabel i.operation)
  | some label => .ok { s.emit instr with labels := label :: s.labels }

/-- Closes the innermost block. -/
def closeBlock (s : Lowering) : Except LiftError Lowering :=
  match s.labels with
  | [] => .error .blockEndWithoutBlock
  | _ :: labels => .ok { s.emit .blockEnd with labels }

/-- Pushes the operands, applies an instruction and stores the result. -/
def compute (context : LoweringContext) (s : Lowering) (i : Instruction) (instr : Instr) :
    Except LiftError Lowering := do
  ((← s.getAll i.inputs).emit instr).setOutput context i

/-- The code of one instruction. -/
def instruction (context : LoweringContext) (s : Lowering) (i : Instruction) :
    Except LiftError Lowering :=
  match i.operation with
  | .wasmConst value => (s.emit (.const value)).setOutput context i
  | .wasmIntBinary width op => s.compute context i (.intBinary width op)
  | .wasmIntUnary width op => s.compute context i (.intUnary width op)
  | .wasmIntEqz width => s.compute context i (.intEqz width)
  | .wasmIntCompare width op => s.compute context i (.intCompare width op)
  | .wasmFloatBinary width op => s.compute context i (.floatBinary width op)
  | .wasmFloatUnary width op => s.compute context i (.floatUnary width op)
  | .wasmFloatCompare width op => s.compute context i (.floatCompare width op)
  | .wasmLoadGlobal => do
    let index ← entity context (← i.inputAt 0)
    (s.emit (.globalGet index)).setOutput context i
  | .wasmStoreGlobal => do
    let index ← entity context (← i.inputAt 0)
    return (← s.get (← i.inputAt 1)).emit (.globalSet index)
  | .wasmTableGet => do
    let index ← entity context (← i.inputAt 0)
    ((← s.get (← i.inputAt 1)).emit (.tableGet index)).setOutput context i
  | .wasmTableSet => do
    let index ← entity context (← i.inputAt 0)
    return (← s.getAll i.inputs.tail).emit (.tableSet index)
  | .wasmMemoryLoad type offset => do
    let memory ← entity context (← i.inputAt 0)
    let addressed ← s.get (← i.inputAt 1)
    if type.isReference then throw (.loadOf type)
    (addressed.emit (.load type offset memory)).setOutput context i
  | .wasmMemoryStore type offset => do
    let memory ← entity context (← i.inputAt 0)
    let loaded ← s.getAll i.inputs.tail
    if type.isReference then throw (.storeOf type)
    return loaded.emit (.store type offset memory)
  | .wasmCallFunction _ => do
    let callee ← entity context (← i.inputAt 0)
    let called := (← s.getAll i.inputs.tail).emit (.call callee)
    i.outputs.reverse.foldlM (set context) called
  | .wasmReassign => do
    let loaded ← s.get (← i.inputAt 1)
    return loaded.emit (.localSet (← loaded.localOf (← i.inputAt 0)))
  | .wasmReturn _ => do return (← s.getAll i.inputs).emit .ret
  | .wasmBeginBlock => s.openBlock i .block
  | .wasmBeginLoop => s.openBlock i .loop
  | .wasmBeginIf => do (← s.get (← i.inputAt 0)).openBlock i .ifThen
  | .wasmBeginElse =>
    match s.labels with
    | [] => .error .elseWithoutIf
    | _ :: labels => { s with labels }.openBlock i .elseThen
  | .wasmEndBlock | .wasmEndLoop | .wasmEndIf => s.closeBlock
  | .wasmBranch => do return s.emit (.br (← s.depthOf (← i.inputAt 0)))
  | .wasmBranchIf => do
    let depth ← s.depthOf (← i.inputAt 0)
    return (← s.get (← i.inputAt 1)).emit (.brIf depth)
  | .wasmUnreachable => .ok (s.emit .unreachable)
  | op => .error (.notInFunction op)

/-- The body of a function with these parameters, instructions and results. -/
def function (context : LoweringContext) (params : List Variable) (body : List Instruction)
    (results : List Variable) : Except LiftError Lowering := do
  let lowered ← body.foldlM (instruction context) (start params)
  return (← lowered.getAll results).emit .blockEnd

end Lowering

end EngineFuzz
