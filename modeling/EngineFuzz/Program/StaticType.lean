import EngineFuzz.Text.Quoted
import EngineFuzz.Wasm.Type

/-!
# Static types of program variables

A variable holds a script value, an entity of the module around it, a WebAssembly value of the
function around it, or a label.
-/

namespace EngineFuzz

/-- The static type of a variable. -/
inductive StaticType where
  | anything | undefined | null | integer | float | bigInt | boolean | string | regExp
  /-- An object; the group tells which methods it has. -/
  | object (group : Option String)
  | array
  | function (parameters : UInt64)
  /-- A global, memory or table object made by the script. -/
  | wasmObject (entity : EntityType)
  /-- A compiled module. -/
  | wasmModule (signature : ModuleSignature)
  /-- The exports of an instance. -/
  | wasmExports (signature : ModuleSignature)
  /-- An entity inside a module body. -/
  | wasmEntity (entity : EntityType)
  /-- A value inside a function body. -/
  | wasm (type : WasmType)
  | label
deriving DecidableEq, Repr, Inhabited

namespace StaticType

/-- Whether the value exists on the script's side. -/
def isScriptValue : StaticType → Bool
  | wasmEntity _ | wasm _ | label => false
  | _ => true

/-- Integers and doubles. -/
def isNumber : StaticType → Bool
  | integer | float => true
  | _ => false

/-- Functions. -/
def isCallable : StaticType → Bool
  | function _ => true
  | _ => false

/-- Values that have properties of their own. -/
def isObjectLike : StaticType → Bool
  | object _ | array | function _ | regExp | wasmObject _ | wasmModule _ | wasmExports _ => true
  | _ => false

/-- Compiled modules. -/
def isWasmModule : StaticType → Bool
  | wasmModule _ => true
  | _ => false

/-- The exports of instances. -/
def isWasmExports : StaticType → Bool
  | wasmExports _ => true
  | _ => false

/-- Global objects of the script. -/
def isGlobalObject : StaticType → Bool
  | wasmObject (.global ..) => true
  | _ => false

/-- Memory objects of the script. -/
def isMemoryObject : StaticType → Bool
  | wasmObject (.memory ..) => true
  | _ => false

/-- Table objects of the script. -/
def isTableObject : StaticType → Bool
  | wasmObject (.table ..) => true
  | _ => false

/-- Whether it is the type of WebAssembly values of type `t`. -/
def isWasmValue (t : WasmType) : StaticType → Bool
  | wasm u => u == t
  | _ => false

/-- Values inside a function of a module. -/
def isAnyWasmValue : StaticType → Bool
  | wasm _ => true
  | _ => false

/-- Numbers inside a function of a module. -/
def isNumericWasmValue : StaticType → Bool
  | wasm t => t.isNumeric
  | _ => false

/-- Labels of blocks. -/
def isLabel : StaticType → Bool
  | label => true
  | _ => false

/-- The entity, if the type is that of one inside a module. -/
def entity? : StaticType → Option EntityType
  | wasmEntity e => some e
  | _ => none

/-- The type of the value, if it lives inside a function of a module. -/
def wasmType? : StaticType → Option WasmType
  | wasm t => some t
  | _ => none

/-- The imports and exports of a module or of its instance. -/
def moduleSignature? : StaticType → Option ModuleSignature
  | wasmModule s | wasmExports s => some s
  | _ => none

end StaticType

/-- A record as text: its name, and its named parts in braces. -/
def recordText (name : String) (fields : List (String × String)) : String :=
  name ++ " \x7b " ++ joined ", " (fields.map fun (n, v) => n ++ ": " ++ v) ++ " \x7d"

namespace WasmType

def recordText (t : WasmType) : String := Enumeration.name t

end WasmType

/-- The signature with named parts. -/
def FunctionSignature.recordText (s : FunctionSignature) : String :=
  EngineFuzz.recordText "WasmSignature"
    [("params", bracketed (s.params.map (·.recordText))),
      ("results", bracketed (s.results.map (·.recordText)))]

/-- The text of an upper limit. -/
def maximumText (maximum : Option UInt32) : String :=
  optionText (maximum.map fun n => natText n.toNat)

/-- The entity with named parts. -/
def EntityType.recordText : EntityType → String
  | function s => "Function(" ++ s.recordText ++ ")"
  | global t m => EngineFuzz.recordText "Global" [("ty", t.recordText), ("mutable", boolText m)]
  | table t least most =>
    EngineFuzz.recordText "Table"
      [("element", t.recordText), ("minimum", natText least.toNat), ("maximum", maximumText most)]
  | memory least most shared =>
    EngineFuzz.recordText "Memory"
      [("minimum", natText least.toNat), ("maximum", maximumText most),
        ("shared", boolText shared)]

/-- The export with named parts. -/
def ModuleExport.recordText (e : ModuleExport) : String :=
  EngineFuzz.recordText "WasmExport" [("name", quoted e.name), ("entity", e.entity.recordText)]

/-- The imports and the exports with named parts. -/
def ModuleSignature.recordText (s : ModuleSignature) : String :=
  EngineFuzz.recordText "ModuleSignature"
    [("imports", bracketed (s.imports.map (·.recordText))),
      ("exports", bracketed (s.exports.map (·.recordText)))]

/-- The text of a type.  Groups, functions and WebAssembly values have short forms. -/
def StaticType.text : StaticType → String
  | anything => "Anything"
  | undefined => "Undefined"
  | null => "Null"
  | integer => "Integer"
  | float => "Float"
  | bigInt => "BigInt"
  | boolean => "Boolean"
  | string => "String"
  | regExp => "RegExp"
  | object (some group) => ".object(" ++ group ++ ")"
  | object none => recordText "Object" [("group", optionText none)]
  | array => "Array"
  | function n => ".function(" ++ natText n.toNat ++ ")"
  | wasmObject e => "WasmObject(" ++ e.recordText ++ ")"
  | wasmModule s => "WasmModule(" ++ s.recordText ++ ")"
  | wasmExports s => "WasmExports(" ++ s.recordText ++ ")"
  | wasmEntity e => "WasmEntity(" ++ e.recordText ++ ")"
  | wasm t => ".wasm(" ++ t.text ++ ")"
  | label => "Label"

end EngineFuzz
