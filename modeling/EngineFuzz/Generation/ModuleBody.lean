import EngineFuzz.Generation.WasmUse

/-!
# Generators of module bodies

Imports are declared only as long as no definition of their category precedes them.
-/

namespace EngineFuzz.Generate

open Build

/-- How many memories generated modules have at most. -/
def mostMemories : Nat := 2

/-- Defines a global, sometimes one that holds a reference. -/
def wasmDefineGlobal : Build Unit := do
  let literal ←
    if ← Draw.chance 10 then pure (WasmLiteral.nullRef (← randomReferenceType))
    else randomLiteral (← randomNumericType)
  let _ ← value (.wasmDefineGlobal literal (← Draw.chance 50)) []

/-- Imports a global object of the script. -/
def wasmImportGlobal (source : Variable) : Build Unit := do
  if ← look (·.canImport .global) then
    let _ ← value .wasmImportGlobal [source]

/-- Defines a table. -/
def wasmDefineTable : Build Unit := do
  let element ← randomReferenceType
  let (minimum, maximum) ← randomLimits 10 10
  let _ ← value (.wasmDefineTable element minimum maximum) []

/-- Imports a table object of the script. -/
def wasmImportTable (source : Variable) : Build Unit := do
  if ← look (·.canImport .table) then
    let _ ← value .wasmImportTable [source]

/-- Defines a memory, unless the module has enough of them. -/
def wasmDefineMemory : Build Unit := do
  if (← look (·.entityCount .memory)) < mostMemories then
    let (minimum, maximum) ← randomLimits 2 4
    let _ ← value (.wasmDefineMemory minimum maximum) []

/-- Imports a memory object of the script, unless the module has enough of them. -/
def wasmImportMemory (source : Variable) : Build Unit := do
  if ← look fun b => b.canImport .memory && b.entityCount .memory < mostMemories then
    let _ ← value .wasmImportMemory [source]

/-- Imports a function of the script under a random signature. -/
def wasmImportFunction (source : Variable) : Build Unit := do
  if ← look (·.canImport .function) then
    let _ ← value (.wasmImportFunction (← randomSignature)) [source]

/-- Defines a function with nested code. -/
def wasmFunctionDefinition (nested : Build Unit) : Build Unit := do
  let _ ← randomWasmFunction nested

end EngineFuzz.Generate
