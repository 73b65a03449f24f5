import EngineFuzz.Program.Instruction

/-!
# Why a program cannot be lifted
-/

namespace EngineFuzz

/-- The ways in which lifting fails. -/
inductive LiftError where
  | operandCounts (i : Instruction)
  /-- An operand is missing in spite of matching counts. -/
  | missingOperand (operation : Operation)
  | moduleEndWithoutBegin (index : Nat)
  | noSignature (signature : FunctionSignature)
  | functionNotClosed
  | emptyFunction
  | notLocal (v : Variable)
  | noWasmType (v : Variable)
  | noOutput (operation : Operation)
  | notEntity (v : Variable)
  | notOpenLabel (v : Variable)
  | noLabel (operation : Operation)
  | blockEndWithoutBlock
  | elseWithoutIf
  | loadOf (type : WasmType)
  | storeOf (type : WasmType)
  | notInFunction (operation : Operation)
  | noModuleEndsAt (index : Nat)
  | moduleOutputs
  | functionWithoutOutput
  | loopWithoutCounter
  | catchWithoutVariable
  | moduleBoundary
  | outsideModule (operation : Operation)
deriving DecidableEq, Repr

namespace LiftError

private def counts (inputs outputs innerOutputs : Nat) : String :=
  natText inputs ++ "/" ++ natText outputs ++ "/" ++ natText innerOutputs

/-- The wording of the error. -/
def message : LiftError → String
  | operandCounts i =>
    let op := i.operation
    op.name ++ " expects " ++ counts op.numInputs op.numOutputs op.numInnerOutputs ++
      " operands, instruction has " ++
      counts i.inputs.length i.outputs.length i.innerOutputs.length
  | missingOperand op => op.name ++ " lacks an operand"
  | moduleEndWithoutBegin index => "module end at " ++ natText index ++ " has no begin"
  | noSignature s => "no type for signature " ++ s.text
  | functionNotClosed => "Wasm function is never closed"
  | emptyFunction => "empty Wasm function"
  | notLocal v => v.text ++ " is not a local of this function"
  | noWasmType v => v.text ++ " has no Wasm value type"
  | noOutput op => op.name ++ " has no output"
  | notEntity v => v.text ++ " is not an entity of this module"
  | notOpenLabel v => "branch to " ++ v.text ++ " which is not an open label"
  | noLabel op => op.name ++ " has no label"
  | blockEndWithoutBlock => "block end without an open block"
  | elseWithoutIf => "else without an open if"
  | loadOf t => "memory load of " ++ t.text
  | storeOf t => "memory store of " ++ t.text
  | notInFunction op => op.name ++ " cannot appear in a Wasm function body"
  | noModuleEndsAt index => "no encoded module ends at " ++ natText index
  | moduleOutputs => "module end must define two outputs"
  | functionWithoutOutput => "function definition has no output"
  | loopWithoutCounter => "loop has no counter"
  | catchWithoutVariable => "catch has no exception variable"
  | moduleBoundary => "module boundaries are lifted separately"
  | outsideModule op => op.name ++ " outside of a Wasm module"

end LiftError

namespace Instruction

/-- The operands of the instruction have to be as many as the operation has. -/
def checkArity (i : Instruction) : Except LiftError Unit :=
  if i.hasConsistentArity then .ok () else .error (.operandCounts i)

/-- The input with a number. -/
def inputAt (i : Instruction) (index : Nat) : Except LiftError Variable :=
  match i.inputs[index]? with
  | some v => .ok v
  | none => .error (.missingOperand i.operation)

end Instruction

end EngineFuzz
