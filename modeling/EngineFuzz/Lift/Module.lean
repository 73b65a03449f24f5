import EngineFuzz.Lift.Function
import EngineFuzz.Program.Environment
import EngineFuzz.Wasm.Encode

/-!
# Lowering modules

The modules of a program in the form of WebAssembly.  The sections follow the layout of the module;
the initial values of globals come from the instructions that define them, and the bodies of
functions stand in the order of their definition.

* `LoweringContext.module`: the module of a body.
* `Program.encodeModules`: all modules of a program.
-/

namespace EngineFuzz

/-- A module of a program. -/
structure EncodedModule where
  /-- The position of the instruction that begins the module. -/
  first : Nat
  /-- The position of the instruction that ends it. -/
  last : Nat
  body : WasmModule
  /-- The values of the script that supply the imports. -/
  importSources : List Variable
  signature : ModuleSignature

namespace EncodedModule

/-- The binary form of the module. -/
def bytes (m : EncodedModule) : List UInt8 := m.body.encode

end EncodedModule

/-- The different members of a list, each where it occurs first. -/
def distinct {α : Type} [BEq α] (items : List α) : List α :=
  (items.foldl (fun seen a => if seen.contains a then seen else a :: seen) []).reverse

namespace ModuleLayout

/-- The signatures of the functions, without repetitions. -/
def functionTypes (l : ModuleLayout) : List FunctionSignature :=
  distinct (l.entities.filterMap fun e =>
    match e.entity with
    | .function signature => some signature
    | _ => none)

end ModuleLayout

namespace LoweringContext

/-- The value that a global is defined with; the last definition of a variable counts. -/
def initialValue (body : List Instruction) (v : Variable) (type : WasmType) : WasmLiteral :=
  let values := body.filterMap fun i =>
    match i.operation, i.output? with
    | .wasmDefineGlobal value _, some output => if output = v then some value else none
    | _, _ => none
  values.getLast?.getD (.zero type)

/-- The number of a signature in the type section. -/
def typeIndex (types : List FunctionSignature) (signature : FunctionSignature) :
    Except LiftError Nat :=
  match types.findIdx? (· == signature) with
  | some index => .ok index
  | none => .error (.noSignature signature)

/-- The type of an import. -/
def importType (types : List FunctionSignature) : EntityType → Except LiftError ImportType
  | .function signature => do return .function (← typeIndex types signature)
  | .table element least most => .ok (.table ⟨element, least, most⟩)
  | .memory least most shared => .ok (.memory ⟨least, most, shared⟩)
  | .global type isMutable => .ok (.global ⟨type, isMutable⟩)

/-- The import of an entity, named by its number. -/
def importEntry (types : List FunctionSignature) (item : ModuleEntity × Nat) :
    Except LiftError ImportEntry := do
  let type ← importType types item.1.entity
  return ⟨WasmModule.importModule, WasmModule.importName item.2, type⟩

/-- Splits the rest of a function at its end. -/
def spanFunction : List Instruction → Option (List Instruction × Instruction × List Instruction)
  | [] => none
  | i :: rest =>
    match i.operation with
    | .endWasmFunction _ => some ([], i, rest)
    | _ => (spanFunction rest).map fun (inside, last, after) => (i :: inside, last, after)

/-- What follows a function is shorter than what it was split off from. -/
theorem length_of_spanFunction {is inside after : List Instruction} {last : Instruction}
    (h : spanFunction is = some (inside, last, after)) : after.length < is.length := by
  induction is generalizing inside with
  | nil => simp [spanFunction] at h
  | cons i rest ih =>
    rw [spanFunction] at h
    split at h
    · simp only [Option.some.injEq, Prod.mk.injEq] at h
      simp [h.2.2]
    · obtain ⟨⟨a, b, c⟩, hs, he⟩ := Option.map_eq_some_iff.1 h
      simp only [Prod.mk.injEq] at he
      obtain ⟨-, rfl, rfl⟩ := he
      have := ih hs
      simp only [List.length_cons]
      omega

/-- The body of the function that the instructions are, from its first to its last one. -/
def functionBody (context : LoweringContext) (is : List Instruction) :
    Except LiftError FunctionBody :=
  match is.head?, is.getLast? with
  | some first, some last => do
    let lowered ← Lowering.function context first.innerOutputs is.tail.dropLast last.inputs
    return ⟨lowered.localTypes.reverse, lowered.code.reverse⟩
  | _, _ => .error .emptyFunction

/-- The bodies of the functions of a module. -/
def functionBodies (context : LoweringContext) :
    List Instruction → Except LiftError (List FunctionBody)
  | [] => .ok []
  | i :: rest =>
    match i.operation with
    | .beginWasmFunction _ =>
      match _h : spanFunction rest with
      | none => .error .functionNotClosed
      | some (inside, last, after) => do
        let body ← context.functionBody (i :: (inside ++ [last]))
        let bodies ← context.functionBodies after
        return body :: bodies
    | _ => context.functionBodies rest
termination_by is => is.length
decreasing_by
  · have := length_of_spanFunction _h
    simp only [List.length_cons]
    omega
  · simp

/-- The entry of an entity in the export section. -/
def exportEntry (layout : ModuleLayout) (e : ModuleEntity) : Option ExportEntry := do
  return ⟨← layout.exportName? e.var, e.category, ← layout.indexOf? e.var⟩

/-- The module whose body stands between its first and its last instruction. -/
def module (context : LoweringContext) (body : List Instruction) : Except LiftError WasmModule := do
  let layout := context.layout
  let types := layout.functionTypes
  let imports ← layout.imports.zipIdx.mapM (importEntry types)
  let signatures := (layout.definitions .function).filterMap fun e =>
    match e.entity with
    | .function signature => some signature
    | _ => none
  let functions ← signatures.mapM (typeIndex types)
  let bodies ← context.functionBodies body
  return {
    types
    imports
    functions
    tables := (layout.definitions .table).filterMap fun e =>
      match e.entity with
      | .table element least most => some ⟨element, least, most⟩
      | _ => none
    memories := (layout.definitions .memory).filterMap fun e =>
      match e.entity with
      | .memory least most shared => some ⟨least, most, shared⟩
      | _ => none
    globals := (layout.definitions .global).filterMap fun e =>
      match e.entity with
      | .global type isMutable => some (⟨type, isMutable⟩, initialValue body e.var type)
      | _ => none
    exports := layout.entities.filterMap (exportEntry layout)
    bodies }

end LoweringContext

/-- The span of a module in a program, with its layout. -/
structure ModuleSpan where
  first : Nat
  last : Nat
  layout : ModuleLayout

/-- Where the search for modules stands. -/
structure ModuleScan where
  typer : Typer
  /-- The position of the latest beginning of a module that has not ended. -/
  begin? : Option Nat
  /-- The modules found, the latest first. -/
  spans : List ModuleSpan

namespace ModuleScan

/-- Goes past the instruction with the number `index`. -/
def step (s : ModuleScan) (index : Nat) (i : Instruction) : Except LiftError ModuleScan := do
  i.checkArity
  let typer := s.typer.apply i
  match i.operation, s.begin? with
  | .beginWasmModule, _ => return { s with typer, begin? := some index }
  | .endWasmModule, none => throw (.moduleEndWithoutBegin index)
  | .endWasmModule, some first =>
    let layout := s.typer.currentModule?.getD .empty
    return { typer, begin? := none, spans := ⟨first, index, layout⟩ :: s.spans }
  | _, _ => return { s with typer }

/-- Goes past instructions, the first of which has the number `index`. -/
def run (s : ModuleScan) (index : Nat) : List Instruction → Except LiftError ModuleScan
  | [] => .ok s
  | i :: rest => do (← s.step index i).run (index + 1) rest

end ModuleScan

namespace Program

/-- The module of a span, once the types of the whole program are known. -/
def encodeSpan (p : Program) (typer : Typer) (span : ModuleSpan) :
    Except LiftError EncodedModule := do
  let inside := (p.instructions.take span.last).drop (span.first + 1)
  let body ← LoweringContext.module ⟨typer, span.layout⟩ inside
  return {
    first := span.first
    last := span.last
    body
    importSources := span.layout.imports.filterMap (·.source)
    signature := span.layout.signature }

/-- The modules of a program, in order. -/
def encodeModules (p : Program) (environment : Environment) :
    Except LiftError (List EncodedModule) := do
  let scan ← ModuleScan.run ⟨.start environment, none, []⟩ 0 p.instructions
  scan.spans.reverse.mapM (p.encodeSpan scan.typer)

end Program

end EngineFuzz
