import EngineFuzz.Analysis.Scope
import EngineFuzz.Analysis.Typer

/-!
# Validation

A program is accepted if each instruction has as many operands as its operation, reads visible
variables of fitting types, stands where it may stand and defines fresh variables, if no import of
a module follows a definition of its category, and if no block is left open.

* `Operation.acceptsInputs`: the types that an operation takes.
* `Validator.step`: one instruction.
* `Program.validate`: a whole program.
-/

namespace EngineFuzz

/-- Whether inputs of these types are acceptable.  `function` is the signature of the WebAssembly
function around the position. -/
def Operation.acceptsInputs (op : Operation) (inputs : List StaticType)
    (function : Option FunctionSignature) : Bool :=
  match op with
  | wasmIntBinary width _ | wasmIntCompare width _ | wasmIntUnary width _ | wasmIntEqz width =>
    inputs.all fun t => t.intWidth? == some width
  | wasmFloatBinary width _ | wasmFloatCompare width _ | wasmFloatUnary width _ =>
    inputs.all fun t => t.floatWidth? == some width
  | wasmLoadGlobal => (inputs matches [.wasmEntity (.global ..)])
  | wasmStoreGlobal =>
    match inputs with
    | [.wasmEntity (.global type true), value] => value.isWasmValue type
    | _ => false
  | wasmTableGet =>
    match inputs with
    | [.wasmEntity (.table ..), index] => index.isWasmValue .i32
    | _ => false
  | wasmTableSet =>
    match inputs with
    | [.wasmEntity (.table element _ _), index, value] =>
      index.isWasmValue .i32 && value.isWasmValue element
    | _ => false
  | wasmMemoryLoad type _ =>
    match inputs with
    | [.wasmEntity (.memory ..), address] => type.isNumeric && address.isWasmValue .i32
    | _ => false
  | wasmMemoryStore type _ =>
    match inputs with
    | [.wasmEntity (.memory ..), address, value] =>
      type.isNumeric && address.isWasmValue .i32 && value.isWasmValue type
    | _ => false
  | wasmCallFunction signature =>
    match inputs with
    | .wasmEntity (.function callee) :: args =>
      callee == signature && args.length == signature.params.length &&
        (args.zip signature.params).all fun (arg, param) => arg.isWasmValue param
    | _ => false
  | wasmReassign =>
    match inputs with
    | [target, value] => target.isAnyWasmValue && target == value
    | _ => false
  | wasmReturn hasValue =>
    match function with
    | none => false
    | some signature =>
      match signature.result, inputs with
      | some result, [value] => hasValue && value.isWasmValue result
      | none, [] => !hasValue
      | _, _ => false
  | endWasmFunction signature =>
    (inputs.zip signature.results).all fun (value, result) => value.isWasmValue result
  | wasmBeginIf =>
    match inputs with
    | [condition] => condition.isWasmValue .i32
    | _ => false
  | wasmBranch => (inputs matches [.label])
  | wasmBranchIf =>
    match inputs with
    | [.label, condition] => condition.isWasmValue .i32
    | _ => false
  | wasmImportGlobal =>
    match inputs with
    | [source] => source.isGlobalObject
    | _ => false
  | wasmImportTable =>
    match inputs with
    | [source] => source.isTableObject
    | _ => false
  | wasmImportMemory =>
    match inputs with
    | [source] => source.isMemoryObject
    | _ => false
  | _ => inputs.all (·.isScriptValue)

/-- What is wrong with an instruction. -/
inductive InstructionFault where
  | operandCounts
  | notVisible (v : Variable)
  | scope (error : ScopeError)
  | inputTypes
  | notFresh (v : Variable)
  | lateImport (category : EntityCategory)
deriving DecidableEq, Repr

/-- The wording of the fault, without its place. -/
def InstructionFault.message : InstructionFault → String
  | operandCounts => "operand counts do not match the operation"
  | notVisible v => v.text ++ " is not visible here"
  | scope error => error.message
  | inputTypes => "input types do not fit the operation"
  | notFresh v => v.text ++ " is not a fresh variable"
  | lateImport c =>
    Enumeration.name c ++ " import declared after a " ++ Enumeration.name c ++ " definition"

/-- Why a program is not accepted. -/
inductive ValidationError where
  | instruction (index : Nat) (i : Instruction) (fault : InstructionFault)
  | openBlocks (count : Nat)
deriving DecidableEq, Repr

/-- The wording of the error, with the place of the instruction. -/
def ValidationError.message : ValidationError → String
  | instruction index i fault =>
    "instruction " ++ natText index ++ " (" ++ i.text ++ "): " ++ fault.message
  | openBlocks count => natText count ++ " block(s) left open at end of program"

/-- What the validator knows at a position. -/
structure Validator where
  scopes : ScopeState
  typer : Typer
  /-- The least word that a fresh variable may have. -/
  nextFresh : UInt32

namespace Validator

/-- The validator in front of the first instruction. -/
def start (environment : Environment) : Validator := ⟨.start, .start environment, 0⟩

/-- The next fresh word after these variables, each of which has to be fresh. -/
def checkFresh (nextFresh : UInt32) : List Variable → Except InstructionFault UInt32
  | [] => .ok nextFresh
  | v :: rest =>
    if v.number < nextFresh then .error (.notFresh v) else checkFresh (v.number + 1) rest

/-- At the end of a module no import may follow a definition of its category. -/
def checkImports (typer : Typer) (op : Operation) : Except InstructionFault Unit :=
  match op, typer.currentModule?.bind (·.orderingViolation?) with
  | .endWasmModule, some category => .error (.lateImport category)
  | _, _ => .ok ()

/-- The types of the inputs of an instruction. -/
def inputTypes (typer : Typer) (i : Instruction) : List StaticType := i.inputs.map typer.typeOf

/-- Checks all of an instruction but the variables that it defines: the number of operands, the
visibility of the inputs, the position and the types of the inputs. -/
def checkUse (scopes : ScopeState) (typer : Typer) (i : Instruction) :
    Except InstructionFault Unit := do
  if !i.hasConsistentArity then throw .operandCounts
  if let some v := i.inputs.find? (!scopes.isVisible ·) then throw (.notVisible v)
  match scopes.check i with
  | .error e => throw (.scope e)
  | .ok () => pure ()
  if !i.operation.acceptsInputs (inputTypes typer i) scopes.currentFunction? then
    throw .inputTypes

/-- Checks one instruction and goes past it. -/
def step (s : Validator) (i : Instruction) : Except InstructionFault Validator := do
  checkUse s.scopes s.typer i
  let nextFresh ← checkFresh s.nextFresh i.definedVariables
  checkImports s.typer i.operation
  return ⟨s.scopes.apply i, s.typer.apply i, nextFresh⟩

/-- Goes past instructions, the first of which has the number `index`. -/
def run (s : Validator) (index : Nat) : List Instruction → Except ValidationError Validator
  | [] => .ok s
  | i :: rest =>
    match s.step i with
    | .error fault => .error (.instruction index i fault)
    | .ok s => s.run (index + 1) rest

end Validator

/-- Whether a program is well formed in an environment. -/
def Program.validate (p : Program) (environment : Environment) : Except ValidationError Unit :=
  match (Validator.start environment).run 0 p.instructions with
  | .error e => .error e
  | .ok s => if s.scopes.depth = 0 then .ok () else .error (.openBlocks s.scopes.depth)

end EngineFuzz
