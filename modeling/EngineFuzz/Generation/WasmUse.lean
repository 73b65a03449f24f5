import EngineFuzz.Generation.ScriptCode

/-!
# Generators of script code that uses WebAssembly
-/

namespace EngineFuzz.Generate

open Build

/-! ### Signatures -/

/-- The signature of a module or of the exports of an instance; an empty one for other values. -/
def signatureOf (v : Variable) : Build ModuleSignature := do
  return (← typeOf v).moduleSignature?.getD .empty

/-- The functions among the exports with their signatures. -/
def exportedFunctions (s : ModuleSignature) : List (String × FunctionSignature) :=
  s.exports.filterMap fun e =>
    match e.entity with
    | .function signature => some (e.name, signature)
    | _ => none

/-- The exports of a category. -/
def exportsOf (s : ModuleSignature) (c : EntityCategory) : List String :=
  (s.exports.filter fun e => e.entity.category == c).map (·.name)

/-- The numeric globals among the exports with their types. -/
def exportedNumbers (s : ModuleSignature) : List (String × WasmType) :=
  s.exports.filterMap fun e =>
    match e.entity with
    | .global type _ => if type.isNumeric then some (e.name, type) else none
    | _ => none

/-! ### Modules -/

/-- Imports a visible source of a category, if an import may still be declared. -/
def importEntity (c : EntityCategory) (op : Operation) (accepts : StaticType → Bool) :
    Build Unit := do
  if ← look (·.canImport c) then
    if ← Draw.chance 50 then
      if let some source ← randomVariable accepts then
        let _ ← value op [source]

/-- Imports some of what is visible on the script's side. -/
def importEntities : Build Unit := do
  importEntity .global .wasmImportGlobal StaticType.isGlobalObject
  importEntity .memory .wasmImportMemory StaticType.isMemoryObject
  importEntity .table .wasmImportTable StaticType.isTableObject
  if ← look (·.canImport .function) then
    if ← Draw.chance 30 then
      if let some source ← randomVariable StaticType.isCallable then
        let _ ← value (.wasmImportFunction (← randomSignature)) [source]

/-- A function of a module that runs `body` and yields some value of its result type. -/
def wasmFunctionWith (signature : FunctionSignature) (body : Build Unit) : Build Variable :=
  wasmFunction signature fun _ => do
    body
    resultFor signature

/-- A function of a module with a random signature. -/
def randomWasmFunction (body : Build Unit) : Build Variable := do
  wasmFunctionWith (← randomSignature) body

/-- A module with imports, nested code and at least one function. -/
def randomModule (nested : Build Unit) : Build (Variable × Variable) :=
  module do
    importEntities
    nested
    if (← look (·.entityCount .function)) = 0 then
      let _ ← randomWasmFunction nested

/-! ### Instances and their exports -/

/-- A value that can be passed for a parameter of a WebAssembly function. -/
def argumentFor (type : WasmType) : Build Variable := do
  match type with
  | .i64 =>
    match ← randomOfType .bigInt with
    | some v => if ← Draw.chance 50 then return v else bigInt (← randomInteger)
    | none => bigInt (← randomInteger)
  | .i32 | .f32 | .f64 =>
    match ← randomVariable StaticType.isNumber with
    | some v => if ← Draw.chance 50 then return v else freshInteger
    | none => freshInteger
  | .externRef | .funcRef => value .loadNull []

/-- Calls an exported function. -/
def callExport (exports : Variable) (name : String) (signature : FunctionSignature) :
    Build Unit := do
  let f ← exported exports name
  let args ← signature.params.mapM argumentFor
  let _ ← call f args true

/-- Calls one of the exported functions, if there are any. -/
def callRandomExport (exports : Variable) : Build Unit := do
  if let some (name, signature) ← Draw.choose (exportedFunctions (← signatureOf exports)) then
    callExport exports name signature

/-- A visible value that may be imported as an entity, or else any script value. -/
def importFor (entity : EntityType) : Build Variable := do
  let found? ← match entity with
    | .function _ => randomVariable StaticType.isCallable
    | entity => randomOfType (.wasmObject entity)
  match found? with
  | some v => return v
  | none => randomScriptValue

/-- Values for the imports of a module, in their order. -/
def importsFor (s : ModuleSignature) : Build (List Variable) := s.imports.mapM importFor

/-- Writes some random bytes at a random place. -/
def writeSomewhere (memory : Variable) (lowest highest most : Nat) : Build Unit := do
  let offset ← Draw.nat64 lowest highest
  writeMemory memory offset (← Draw.bytesUpTo most)

/-- A random module, of which one export is called. -/
def wasmModule (nested : Build Unit) : Build Unit := do
  let (_, exports) ← randomModule nested
  callRandomExport exports

/-- Makes another instance of a module and uses it. -/
def wasmInstantiate (module : Variable) : Build Unit := do
  let signature ← signatureOf module
  let exports ← instantiate module (← importsFor signature)
  if !(exportsOf signature .memory).isEmpty then
    writeSomewhere (← exportedMemory exports 0) 0 1024 32
  callRandomExport exports

/-- Calls one of the exported functions. -/
def wasmExportCall (exports : Variable) : Build Unit := callRandomExport exports

/-- Repeats a computation for its effect. -/
def repeated (n : Nat) (body : Build Unit) : Build Unit := do
  let _ ← times n body

/-- Writes into a memory of an instance, or into one that it does not have. -/
def wasmMemoryOperations (exports : Variable) : Build Unit := do
  let count := (exportsOf (← signatureOf exports) .memory).length
  let memory ← exportedMemory exports (← Draw.nat32 0 count)
  repeated (← Draw.nat32 1 3) (writeSomewhere memory 0 1024 32)

/-- A number of the script that goes with a WebAssembly value. -/
def numberFor (type : WasmType) (n : Int) : Build Variable :=
  if type = .i64 then bigInt n else integer n

/-- Computes with an exported global, or makes a new one. -/
def wasmGlobal (source : Variable) : Build Unit := do
  match ← Draw.choose (exportedNumbers (← signatureOf source)) with
  | some (name, type) =>
    let v ← exportedGlobal source name
    let operand ← numberFor type 42
    let op ← Draw.chooseD [BinaryOperator.add, .mul, .sub] .add
    let _ ← binary v operand op
  | none =>
    let type ← randomNumericType
    let literal ← randomLiteral type
    let _ ← value (.createWasmGlobal literal (← Draw.chance 50)) []

/-- Writes into a memory, or makes a new one.  A shared memory has a maximum. -/
def wasmMemory (source : Variable) : Build Unit := do
  if (← typeOf source).isMemoryObject then writeSomewhere source 0 1024 32
  else
    let minimum ← Draw.nat32 0 2
    let shared ← Draw.chance 20
    let bounded ← if shared then pure true else (Draw.chance 50 : Build Bool)
    let maximum ←
      if bounded then pure (some (minimum + (← Draw.nat32 0 4)).toUInt32) else pure none
    let _ ← value (.createWasmMemory minimum.toUInt32 maximum shared) []

/-- A new table, which is then asked to grow. -/
def wasmTable : Build Unit := do
  let element ← randomReferenceType
  let (minimum, maximum) ← randomLimits 10 10
  let table ← value (.createWasmTable element minimum maximum) []
  let delta ← integer 1
  let _ ← callMethod table "grow" [delta] true

/-! ### Scenarios -/

/-- A memory made from a descriptor, seen as an array of 32-bit integers. -/
def memoryView (descriptor : List (String × Variable)) : Build Variable := do
  let webAssembly ← builtin "WebAssembly"
  let constructor ← property webAssembly "Memory"
  let memory ← construct constructor [← object descriptor] false
  let arrayConstructor ← builtin "Int32Array"
  let buffer ← property memory "buffer"
  construct arrayConstructor [buffer] false

/-- A memory of one page, which may become two. -/
def pageView (shared : Bool) : Build Variable := do
  let initial ← integer 1
  let maximum ← integer 2
  let shared ← value (.loadBoolean shared) []
  memoryView [("initial", initial), ("maximum", maximum), ("shared", shared)]

/-- Accesses the last element of a page and the one behind it. -/
def wasmMemoryBoundary : Build Unit := Build.guarded do
  let initial ← integer 1
  let view ← memoryView [("initial", initial)]
  let index ← integer 16383
  let v ← integer 42
  perform .setComputedProperty [view, index, v]
  let pastEnd ← integer 16384
  let _ ← value .getComputedProperty [view, pastEnd]

/-- Accesses a shared memory with atomic operations. -/
def wasmConcurrentAccess : Build Unit := Build.guarded do
  let view ← pageView true
  let atomics ← builtin "Atomics"
  let index ← integer 0
  let v ← integer 42
  let _ ← callMethod atomics "store" [view, index, v] false
  let _ ← callMethod atomics "add" [view, index, v] false

/-- Writes into a memory after a comparison of the index. -/
def wasmMemoryAccess : Build Unit := Build.guarded do
  let view ← pageView false
  let offset ← integer (← Draw.int64 0 10)
  let limit ← integer 10
  let inRange ← compare offset limit .lessThan
  let store : Build Unit := do
    let v ← integer 42
    perform .setComputedProperty [view, offset, v]
  let _ ← ifElseBlock inRange store fun _ => value .loadUndefined []

/-- The bytes as an array of the script. -/
def byteArray (bytes : List UInt8) : Build Variable := do
  let elements ← bytes.mapM fun b => integer b.toNat
  let bytes ← array elements
  let constructor ← builtin "Uint8Array"
  construct constructor [bytes] false

/-- A module that exports "add", which adds two vectors of four 32-bit integers. -/
def vectorModule : List UInt8 := [
  -- header
  0x00, 0x61, 0x73, 0x6d, 0x01, 0x00, 0x00, 0x00,
  -- type (v128, v128) -> v128
  0x01, 0x07, 0x01, 0x60, 0x02, 0x7b, 0x7b, 0x01, 0x7b,
  -- function
  0x03, 0x02, 0x01, 0x00,
  -- export
  0x07, 0x07, 0x01, 0x03, 0x61, 0x64, 0x64, 0x00, 0x00,
  -- code
  0x0a, 0x0b, 0x01, 0x09, 0x00, 0x20, 0x00, 0x20, 0x01, 0xfd, 0xae, 0x01, 0x0b]

/-- Instantiates and calls a module with a vector instruction where such modules are valid. -/
def wasmSimd : Build Unit := Build.guarded do
  let webAssembly ← builtin "WebAssembly"
  let bytes ← byteArray vectorModule
  let valid ← callMethod webAssembly "validate" [bytes] false
  ifBlock valid do
    let moduleConstructor ← property webAssembly "Module"
    let module ← construct moduleConstructor [bytes] false
    let instanceConstructor ← property webAssembly "Instance"
    let instance_ ← construct instanceConstructor [module] false
    let exports ← property instance_ "exports"
    let add ← property exports "add"
    let one ← integer 1
    let two ← integer 2
    let _ ← call add [one, two] true

/-- The magic word and the version of the binary format. -/
def moduleHeader : List UInt8 := [0x00, 0x61, 0x73, 0x6d, 0x01, 0x00, 0x00, 0x00]

/-- Asks whether random bytes are a module. -/
def wasmRandomBytes : Build Unit := do
  let bytes ← byteArray (moduleHeader ++ (← Draw.bytesUpTo 24))
  let webAssembly ← builtin "WebAssembly"
  let _ ← callMethod webAssembly "validate" [bytes] false

end EngineFuzz.Generate
