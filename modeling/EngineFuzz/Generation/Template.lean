import EngineFuzz.Config.WeightTable
import EngineFuzz.Enumeration

/-!
# Templates

A template gives a generated program its shape.  This module lists the templates with their
weights.
-/

namespace EngineFuzz

/-- The templates, by what they are about. -/
inductive Template where
  | codegen100 | codegen50 | oneFunction | twoFunctions | trickyFunction | jsonText
  | wasmModule | wasmScenario | wasmMemory | wasmGlobal | wasmFunctions | wasmTable | wasmImport
  | wasmMemories | wasmImportExport | wasmCombination | mapTransition | valueSerializer | regExp
deriving DecidableEq, Repr, Inhabited

instance : Enumeration Template where
  all := [.codegen100, .codegen50, .oneFunction, .twoFunctions, .trickyFunction, .jsonText,
    .wasmModule, .wasmScenario, .wasmMemory, .wasmGlobal, .wasmFunctions, .wasmTable, .wasmImport,
    .wasmMemories, .wasmImportExport, .wasmCombination, .mapTransition, .valueSerializer, .regExp]
  name
    | .codegen100 => "Codegen100"
    | .codegen50 => "Codegen50"
    | .oneFunction => "JIT1Function"
    | .twoFunctions => "JIT2Functions"
    | .trickyFunction => "JITTrickyFunction"
    | .jsonText => "JSONFuzzer"
    | .wasmModule => "WasmFuzzer"
    | .wasmScenario => "ComplexWasmFuzzer"
    | .wasmMemory => "WasmMemoryTest"
    | .wasmGlobal => "WasmGlobalTest"
    | .wasmFunctions => "WasmFunctionTest"
    | .wasmTable => "WasmTableTest"
    | .wasmImport => "WasmImportTest"
    | .wasmMemories => "WasmMemoryFuzzer"
    | .wasmImportExport => "WasmImportExportFuzzer"
    | .wasmCombination => "ComplexWasmTest"
    | .mapTransition => "MapTransitionFuzzer"
    | .valueSerializer => "ValueSerializerFuzzer"
    | .regExp => "RegExpFuzzer"

namespace Template

/-- How often a template is drawn. -/
def weight : Template → UInt32
  | codegen100 | codegen50 | trickyFunction => 2
  | jsonText => 1
  | oneFunction | twoFunctions | mapTransition | valueSerializer | regExp => 3
  | _ => 5

/-- The built-in weights of the templates. -/
def weights : WeightTable :=
  ⟨"template", Enumeration.all.map fun (t : Template) => (Enumeration.name t, t.weight)⟩

end Template

end EngineFuzz
