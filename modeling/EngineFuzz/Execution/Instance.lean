import EngineFuzz.Config.Settings
import EngineFuzz.Execution.Frame
import EngineFuzz.Execution.HostImport
import EngineFuzz.Execution.Machine
import EngineFuzz.Wasm.Outcome
import EngineFuzz.Wasm.Typing

/-!
# Running modules

A module that has been accepted and supplied with its imports becomes an instance, whose exported
functions can be called.  What they change in memories, globals and tables stays, also after a trap.

* `ModuleInstance.start`: an instance of a module.
* `ModuleInstance.invoke`, `ModuleInstance.globalValue`: its functions and globals.
* `Program.execute`: calls every exported function of every module of a program.
-/

namespace EngineFuzz

/-- Why a module cannot be run, or what is asked of an instance not be done. -/
inductive RunError where
  | lifting (e : LiftError)
  | noModule (index count : Nat)
  | noHostValue (missing : MissingHostValue)
  /-- The settings leave no stack for functions. -/
  | noStack
  /-- The module breaks the rules of types. -/
  | rejected
  /-- A value for an import cannot be made. -/
  | unmakeableImport
  /-- A value does not have the type of the import that it is for. -/
  | unsuitableImport
  | noFunction (name : String)
  | noGlobal (name : String)
  /-- The arguments do not have the types of the parameters. -/
  | unsuitableArguments (name : String)
deriving DecidableEq, Repr

namespace RunError

/-- The wording of the error. -/
def message : RunError → String
  | lifting e => e.message
  | noModule index count => "module " ++ natText index ++ " of " ++ natText count
  | noHostValue missing =>
    "no host value can supply the import " ++ natText missing.index ++ " from " ++
      missing.source.text
  | noStack => "Failed to create engine"
  | rejected => "Failed to compile module"
  | unmakeableImport => "Failed to define imports"
  | unsuitableImport => "Failed to instantiate"
  | noFunction name => "function export " ++ name
  | noGlobal name => "global export " ++ name
  | unsuitableArguments name => "Call to " ++ name ++ " failed"

end RunError

namespace WasmValue

/-- The value that the host sees; of a reference only whether it is null. -/
def ofMachine : MachineValue → WasmValue
  | .i32 v => i32 v
  | .i64 v => i64 v
  | .f32 v => f32 v
  | .f64 v => f64 v
  | .reference _ target => reference target.isNone

/-- The argument that the value is passed as.  Every reference is passed as the null reference to
something external. -/
def argument : WasmValue → MachineValue
  | i32 v => .i32 v
  | i64 v => .i64 v
  | f32 v => .f32 v
  | f64 v => .f64 v
  | reference _ => .reference .externRef none

end WasmValue

namespace RuntimeSettings

/-- What the host itself takes of the stack on the way to the first function, in bytes. -/
def entrySize : Nat := 384

/-- Stacks lie below this address, so that one of this size cannot be had. -/
def addressSpace : Nat := Nat.pow 2 47

/-- How much of the stack is there for active functions, in bytes. -/
def stackSize (s : RuntimeSettings) : Nat :=
  if s.maxWasmStack.toNat < addressSpace then s.maxWasmStack.toNat - entrySize else 0

end RuntimeSettings

namespace WasmModule

/-- The function that an import asks for, under the name of the import. -/
def importedCallee? (m : WasmModule) (i : ImportEntry) : Option Callee :=
  match m.importedEntity? i with
  | some (.function signature) => some (.host i.name signature)
  | _ => none

/-- The imported functions. -/
def importedCallees (m : WasmModule) : List Callee := m.imports.filterMap m.importedCallee?

/-- The functions by their indices. -/
def callees (m : WasmModule) : List Callee :=
  let imported := m.importedCallees
  let defined := m.definedSignatures?.getD []
  let signatures := imported.map (·.signature) ++ defined
  imported ++ (defined.zip m.bodies).map fun (signature, body) =>
    .code signature body (body.frameSize signatures signature)

/-- The memories, globals and tables at the start, given the values of the imports. -/
def initialStore (m : WasmModule) (imports : List HostImport) : Store where
  memories :=
    (imports.filterMap fun
      | .memory least _ _ => some (LinearMemory.blank least.toNat)
      | _ => none) ++
    m.memories.map fun t => LinearMemory.blank t.minimum.toNat
  tables :=
    (imports.filterMap fun
      | .table element least _ => some (TableState.blank element.asReference least.toNat)
      | _ => none) ++
    m.tables.map fun t => TableState.blank t.element.asReference t.minimum.toNat
  globals :=
    (imports.filterMap fun
      | .global value _ => some (MachineValue.ofLiteral value.operand)
      | _ => none) ++
    m.globals.map fun (_, value) => .ofLiteral value.operand
  hostCalls := []

end WasmModule

/-- A module that is ready to run. -/
structure ModuleInstance where
  setup : MachineSetup
  exports : List ExportEntry
  signature : ModuleSignature
  /-- The fuel of each call. -/
  fuel : Nat
  store : Store

namespace ModuleInstance

/-- An instance of a module with these values for its imports. -/
def start (settings : RuntimeSettings) (m : EncodedModule) (imports : List HostImport) :
    Except RunError ModuleInstance :=
  if !m.body.isValid then .error .rejected
  else if !imports.all (·.isMakeable) then .error .unmakeableImport
  else if !((m.body.importTypes.zip imports).all fun (entity, value) =>
      entity.isSuppliedBy value.entityType) then .error .unsuitableImport
  else .ok {
    setup := ⟨m.body.callees.toArray, settings.stackSize, .stub⟩
    exports := m.body.exports
    signature := m.signature
    fuel := settings.maxFuel.toNat
    store := m.body.initialStore imports }

/-- The exported functions with their signatures, in the order of the exports. -/
def functionExports (i : ModuleInstance) : List (String × FunctionSignature) :=
  i.signature.exports.filterMap fun e =>
    match e.entity with
    | .function signature => some (e.name, signature)
    | _ => none

/-- The names of the imports that have been called, in order. -/
def hostCalls (i : ModuleInstance) : List String :=
  i.store.hostCalls.reverse.map (·.name)

/-- The index of the export with a name in a category. -/
def findExport? (i : ModuleInstance) (category : EntityCategory) (name : String) : Option Nat :=
  (i.exports.find? fun e => e.name == name && e.category == category).map (·.index)

/-- Calls an exported function, and gives the instance after the call.  A trap is an outcome. -/
def invoke (i : ModuleInstance) (name : String) (args : List WasmValue) :
    Except RunError Outcome × ModuleInstance :=
  match (i.findExport? .function name).bind (i.setup.functions[·]?) with
  | none => (.error (.noFunction name), i)
  | some callee =>
    let args := args.map (·.argument)
    if args.map (·.type) ≠ callee.signature.params then
      (.error (.unsuitableArguments name), i)
    else
      match i.setup.invoke i.fuel i.store callee args with
      | .returned values store =>
        (.ok (.returned (values.map WasmValue.ofMachine)), { i with store })
      | .trapped kind store => (.ok (.trapped kind), { i with store })
      | .running m => (.ok (.trapped .outOfFuel), { i with store := m.store })
      | .stuck => (.ok (.trapped .other), i)

/-- Zeros and nulls for the parameters of a signature. -/
def defaultArguments (signature : FunctionSignature) : List WasmValue :=
  signature.params.map fun t => .ofMachine (.zero t)

/-- Calls an exported function with zeros and nulls for the parameters of a signature. -/
def invokeWithDefaults (i : ModuleInstance) (name : String) (signature : FunctionSignature) :
    Except RunError Outcome × ModuleInstance :=
  i.invoke name (defaultArguments signature)

/-- The value of an exported global. -/
def globalValue (i : ModuleInstance) (name : String) : Except RunError WasmValue :=
  match (i.findExport? .global name).bind (i.store.globals[·]?) with
  | some value => .ok (.ofMachine value)
  | none => .error (.noGlobal name)

end ModuleInstance

/-- How the call of an export ended. -/
structure ExportOutcome where
  /-- The number of the module. -/
  moduleIndex : Nat
  name : String
  outcome : Outcome
deriving DecidableEq, Repr

namespace ExportOutcome

/-- Calls functions of an instance one after another. -/
def ofExports (moduleIndex : Nat) (i : ModuleInstance) :
    List (String × FunctionSignature) → Except RunError (List ExportOutcome)
  | [] => .ok []
  | (name, signature) :: rest => do
    let (outcome, i) := i.invokeWithDefaults name signature
    let outcome ← outcome
    return ⟨moduleIndex, name, outcome⟩ :: (← ofExports moduleIndex i rest)

end ExportOutcome

namespace Program

/-- An instance of a module of a program. -/
def instantiateModule (p : Program) (settings : RuntimeSettings) (m : EncodedModule) :
    Except RunError ModuleInstance := do
  let imports ← (p.hostImports m).mapError RunError.noHostValue
  ModuleInstance.start settings m imports

/-- The modules of a program, if there is a stack to run them on. -/
def runnableModules (p : Program) (settings : RuntimeSettings) (environment : Environment) :
    Except RunError (List EncodedModule) := do
  if settings.maxWasmStack = 0 then throw .noStack
  (p.encodeModules environment).mapError RunError.lifting

/-- An instance of the module with a number. -/
def instantiate (p : Program) (settings : RuntimeSettings) (environment : Environment)
    (index : Nat) : Except RunError ModuleInstance := do
  let modules ← p.runnableModules settings environment
  match modules[index]? with
  | some m => p.instantiateModule settings m
  | none => throw (.noModule index modules.length)

/-- Calls every exported function of every module, with zeros and nulls.  The first error is the
result. -/
def execute (p : Program) (settings : RuntimeSettings) (environment : Environment) :
    Except RunError (List ExportOutcome) := do
  let modules ← p.runnableModules settings environment
  let outcomes ← modules.zipIdx.mapM fun (m, index) => do
    let i ← p.instantiateModule settings m
    ExportOutcome.ofExports index i i.functionExports
  return outcomes.flatten

end Program

end EngineFuzz
