import EngineFuzz.Json.Decode
import EngineFuzz.Program.StaticType

/-!
# WebAssembly types and literals in JSON
-/

namespace EngineFuzz

/-- A field that must be there. -/
def requiredField? {α : Type} (reader : Json → Option α) (v : Option Json) : Option α :=
  v.bind reader

/-- A field that may be missing or null. -/
def optionalField? {α : Type} (reader : Json → Option α) : Option Json → Option (Option α)
  | none => some none
  | some v => v.toOption? reader

namespace FunctionSignature

/-- The signature that a record denotes. -/
def ofJson? (v : Json) : Option FunctionSignature := do
  match ← v.record? ["params", "results"] with
  | [params, results] =>
    return ⟨← requiredField? (·.toList? Json.toMember?) params,
      ← requiredField? (·.toList? Json.toMember?) results⟩
  | _ => none

/-- The signature as a record. -/
def toJson (s : FunctionSignature) : Json :=
  .object [("params", .ofList .ofMember s.params), ("results", .ofList .ofMember s.results)]

end FunctionSignature

namespace WasmLiteral

/-- The literal that a variant denotes. -/
def ofJson? (v : Json) : Option WasmLiteral := do
  match ← v.variant? with
  | ("I32", some v) => return i32 (← v.toInt32?)
  | ("I64", some v) => return i64 (← v.toInt64?)
  | ("F32", some v) => return f32 (← v.toSingle?)
  | ("F64", some v) => return f64 (← v.toDouble?)
  | ("NullRef", some v) => return nullRef (← v.toMember?)
  | _ => none

/-- The literal as a variant. -/
def toJson : WasmLiteral → Json
  | i32 v => .tagged "I32" (.ofInt v.toInt)
  | i64 v => .tagged "I64" (.ofInt v.toInt)
  | f32 v => .tagged "F32" (.ofSingle v)
  | f64 v => .tagged "F64" (.ofDouble v)
  | nullRef t => .tagged "NullRef" (.ofMember t)

end WasmLiteral

/-- An upper limit; null is none. -/
def maximumJson (maximum : Option UInt32) : Json := .ofOption (fun n => .ofNat n.toNat) maximum

namespace EntityType

/-- The entity type that a variant denotes. -/
def ofJson? (v : Json) : Option EntityType := do
  match ← v.variant? with
  | ("Function", some v) => return function (← FunctionSignature.ofJson? v)
  | ("Global", some v) =>
    match ← v.record? ["ty", "mutable"] with
    | [type, isMutable] =>
      return global (← requiredField? Json.toMember? type) (← requiredField? Json.toBool? isMutable)
    | _ => none
  | ("Table", some v) =>
    match ← v.record? ["element", "minimum", "maximum"] with
    | [element, minimum, maximum] =>
      return table (← requiredField? Json.toMember? element)
        (← requiredField? Json.toUInt32? minimum) (← optionalField? Json.toUInt32? maximum)
    | _ => none
  | ("Memory", some v) =>
    match ← v.record? ["minimum", "maximum", "shared"] with
    | [minimum, maximum, shared] =>
      return memory (← requiredField? Json.toUInt32? minimum)
        (← optionalField? Json.toUInt32? maximum) (← requiredField? Json.toBool? shared)
    | _ => none
  | _ => none

/-- The entity type as a variant. -/
def toJson : EntityType → Json
  | function s => .tagged "Function" s.toJson
  | global t m => .tagged "Global" (.object [("ty", .ofMember t), ("mutable", .bool m)])
  | table t least most =>
    .tagged "Table" (.object [("element", .ofMember t), ("minimum", .ofNat least.toNat),
      ("maximum", maximumJson most)])
  | memory least most shared =>
    .tagged "Memory" (.object [("minimum", .ofNat least.toNat), ("maximum", maximumJson most),
      ("shared", .bool shared)])

end EntityType

namespace ModuleSignature

/-- The export that a record denotes. -/
def exportOfJson? (v : Json) : Option ModuleExport := do
  match ← v.record? ["name", "entity"] with
  | [name, entity] =>
    return ⟨← requiredField? Json.toText? name, ← requiredField? EntityType.ofJson? entity⟩
  | _ => none

/-- The imports and exports that a record denotes. -/
def ofJson? (v : Json) : Option ModuleSignature := do
  match ← v.record? ["imports", "exports"] with
  | [imports, exports] =>
    return ⟨← requiredField? (·.toList? EntityType.ofJson?) imports,
      ← requiredField? (·.toList? exportOfJson?) exports⟩
  | _ => none

/-- The imports and exports as a record. -/
def toJson (s : ModuleSignature) : Json :=
  .object [("imports", .ofList (·.toJson) s.imports),
    ("exports", .ofList (fun e => .object [("name", .string e.name), ("entity", e.entity.toJson)])
      s.exports)]

end ModuleSignature

namespace StaticType

/-- The type that a variant denotes. -/
def ofJson? (v : Json) : Option StaticType := do
  let (name, content) ← v.variant?
  let unit (t : StaticType) : Option StaticType := if Json.isUnit content then some t else none
  match name with
  | "Anything" => unit anything
  | "Undefined" => unit undefined
  | "Null" => unit null
  | "Integer" => unit integer
  | "Float" => unit float
  | "BigInt" => unit bigInt
  | "Boolean" => unit boolean
  | "String" => unit string
  | "RegExp" => unit regExp
  | "Object" =>
    match ← (← content).record? ["group"] with
    | [group] => return object (← optionalField? Json.toText? group)
    | _ => none
  | "Array" => unit array
  | "Function" =>
    match ← (← content).record? ["parameters"] with
    | [parameters] => return function (← requiredField? Json.toUInt64? parameters)
    | _ => none
  | "WasmObject" => return wasmObject (← EntityType.ofJson? (← content))
  | "WasmModule" => return wasmModule (← ModuleSignature.ofJson? (← content))
  | "WasmExports" => return wasmExports (← ModuleSignature.ofJson? (← content))
  | "WasmEntity" => return wasmEntity (← EntityType.ofJson? (← content))
  | "Wasm" => return wasm (← (← content).toMember?)
  | "Label" => unit label
  | _ => none

/-- The type as a variant. -/
def toJson : StaticType → Json
  | anything => .string "Anything"
  | undefined => .string "Undefined"
  | null => .string "Null"
  | integer => .string "Integer"
  | float => .string "Float"
  | bigInt => .string "BigInt"
  | boolean => .string "Boolean"
  | string => .string "String"
  | regExp => .string "RegExp"
  | object group => .tagged "Object" (.object [("group", .ofOption .string group)])
  | array => .string "Array"
  | function n => .tagged "Function" (.object [("parameters", .ofNat n.toNat)])
  | wasmObject e => .tagged "WasmObject" e.toJson
  | wasmModule s => .tagged "WasmModule" s.toJson
  | wasmExports s => .tagged "WasmExports" s.toJson
  | wasmEntity e => .tagged "WasmEntity" e.toJson
  | wasm t => .tagged "Wasm" (.ofMember t)
  | label => .string "Label"

end StaticType

end EngineFuzz
