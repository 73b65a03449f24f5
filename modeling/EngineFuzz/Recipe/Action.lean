import EngineFuzz.Recipe.Step

/-!
# Actions of recipe steps

The actions that append single instructions, and those that ask or draw something.

* `Recipe.valueAction?`: instructions that yield a variable.
* `Recipe.silentAction?`: actions that yield nothing.
* `Recipe.queryAction?`: actions that answer a question.
-/

namespace EngineFuzz.Recipe

/-- An operation with its operands. -/
abbrev Use := Operation × List Variable

/-- An operation whose operands are in these fields. -/
def Operands.use (o : Operands) (op : Operation) (fields : List String) : Read (Option Use) := do
  return some (op, ← fields.mapM o.var)

/-- Script operations with one output. -/
def scriptValue? (o : Operands) : String → Read (Option Use)
  | "load_integer" => do o.use (.loadInteger (← o.need "value" Json.toInt64?)) []
  | "load_bigint" => do o.use (.loadBigInt (← o.need "value" Json.toInt64?)) []
  | "load_float" => do
    let bits ← o.need "value" fun v => v.toText?.bind hexNat?
    o.use (.loadFloat (.ofWord bits)) []
  | "load_string" => do o.use (.loadString (← o.text "value")) []
  | "load_boolean" => o.use (.loadBoolean (o.isSet "value")) []
  | "load_undefined" => o.use .loadUndefined []
  | "load_null" => o.use .loadNull []
  | "load_regexp" => do o.use (.loadRegExp (← o.text "pattern") (← o.text "flags")) []
  | "load_builtin" => do o.use (.loadBuiltin (← o.text "name")) []
  | "get_property" => do o.use (.getProperty (← o.text "name")) ["object"]
  | "delete_property" => do o.use (.deleteProperty (← o.text "name")) ["object"]
  | "get_element" => do o.use (.getElement (← o.need "index" Json.toInt64?)) ["object"]
  | "get_computed_property" => o.use .getComputedProperty ["object", "key"]
  | "binary" => do o.use (.binaryOperation (← o.member "op")) ["lhs", "rhs"]
  | "compare" => do o.use (.compare (← o.member "op")) ["lhs", "rhs"]
  | "unary" => do o.use (.unaryOperation (← o.member "op")) ["value"]
  | "create_wasm_global" => do o.use (.createWasmGlobal (← o.literal) (o.isSet "mutable")) []
  | "create_wasm_memory" => do
    let least ← o.need "min" Json.toUInt32?
    o.use (.createWasmMemory least (← o.maximum) (o.isSet "shared")) []
  | "create_wasm_table" => do
    let least ← o.need "min" Json.toUInt32?
    o.use (.createWasmTable (← o.member "element") least (← o.maximum)) []
  | "get_wasm_export" => do o.use (.getWasmExport (← o.text "name")) ["exports"]
  | "get_wasm_global" => do o.use (.getWasmGlobal (← o.text "name")) ["exports"]
  | "get_wasm_memory" => do o.use (.getWasmMemory (← o.need "index" Json.toUInt32?)) ["exports"]
  | _ => .ok none

/-- Operations of modules and functions with one output. -/
def wasmValue? (o : Operands) : String → Read (Option Use)
  | "wasm_define_global" => do o.use (.wasmDefineGlobal (← o.literal) (o.isSet "mutable")) []
  | "wasm_define_table" => do
    let least ← o.need "min" Json.toUInt32?
    o.use (.wasmDefineTable (← o.member "element") least (← o.maximum)) []
  | "wasm_define_memory" => do
    let least ← o.need "min" Json.toUInt32?
    o.use (.wasmDefineMemory least (← o.maximum)) []
  | "wasm_import_global" => o.use .wasmImportGlobal ["source"]
  | "wasm_import_table" => o.use .wasmImportTable ["source"]
  | "wasm_import_memory" => o.use .wasmImportMemory ["source"]
  | "wasm_import_function" => do o.use (.wasmImportFunction (← o.signature)) ["source"]
  | "wasm_const" => do o.use (.wasmConst (← o.literal)) []
  | "wasm_int_binary" => do
    o.use (.wasmIntBinary (← o.member "width") (← o.member "op")) ["lhs", "rhs"]
  | "wasm_int_compare" => do
    o.use (.wasmIntCompare (← o.member "width") (← o.member "op")) ["lhs", "rhs"]
  | "wasm_float_binary" => do
    o.use (.wasmFloatBinary (← o.member "width") (← o.member "op")) ["lhs", "rhs"]
  | "wasm_float_compare" => do
    o.use (.wasmFloatCompare (← o.member "width") (← o.member "op")) ["lhs", "rhs"]
  | "wasm_int_unary" => do o.use (.wasmIntUnary (← o.member "width") (← o.member "op")) ["value"]
  | "wasm_float_unary" => do
    o.use (.wasmFloatUnary (← o.member "width") (← o.member "op")) ["value"]
  | "wasm_int_eqz" => do o.use (.wasmIntEqz (← o.member "width")) ["value"]
  | "wasm_load_global" => o.use .wasmLoadGlobal ["global"]
  | "wasm_table_get" => o.use .wasmTableGet ["table", "index"]
  | "wasm_memory_load" => do
    o.use (.wasmMemoryLoad (← o.member "ty") (← o.word64 "offset")) ["memory", "address"]
  | _ => .ok none

/-- Operations that are appended for their effect. -/
def effect? (o : Operands) : String → Read (Option Use)
  | "set_property" => do o.use (.setProperty (← o.text "name")) ["object", "value"]
  | "set_element" => do o.use (.setElement (← o.need "index" Json.toInt64?)) ["object", "value"]
  | "set_computed_property" => o.use .setComputedProperty ["object", "key", "value"]
  | "reassign" => o.use .reassign ["target", "value"]
  | "throw" => o.use .throwException ["value"]
  | "break" => o.use .loopBreak []
  | "continue" => o.use .loopContinue []
  | "write_wasm_memory" => do
    let bytes ← o.need "bytes" fun v => v.toText?.bind hexBytes?
    o.use (.writeWasmMemory (← o.word64 "offset") bytes) ["memory"]
  | "wasm_store_global" => o.use .wasmStoreGlobal ["global", "value"]
  | "wasm_table_set" => o.use .wasmTableSet ["table", "index", "value"]
  | "wasm_memory_store" => do
    o.use (.wasmMemoryStore (← o.member "ty") (← o.word64 "offset")) ["memory", "address", "value"]
  | "wasm_reassign" => o.use .wasmReassign ["target", "value"]
  | "wasm_branch" => o.use .wasmBranch ["label"]
  | "wasm_branch_if" => o.use .wasmBranchIf ["label", "value"]
  | "wasm_unreachable" => o.use .wasmUnreachable []
  | _ => .ok none

/-- The first of two readings that applies. -/
def firstOf {α : Type} (first second : Read (Option α)) : Read (Option α) := do
  match ← first with
  | some a => return some a
  | none => second

/-- An action that yields a variable. -/
def valueAction? (o : Operands) : String → Read (Option (Build Variable))
  | "create_object" => do
    let names ← o.need "names" (·.toList? Json.toText?)
    return some (Build.object (names.zip (← o.args)))
  | "create_array" => do return some (Build.array (← o.args))
  | "call_function" => do
    return some (Build.call (← o.var "function") (← o.args) (o.isSet "guarded"))
  | "construct" => do
    return some (Build.construct (← o.var "function") (← o.args) (o.isSet "guarded"))
  | "call_method" => do
    let object ← o.var "object"
    return some (Build.callMethod object (← o.text "name") (← o.args) (o.isSet "guarded"))
  | "instantiate_wasm" => do
    return some (Build.instantiate (← o.var "module") (← o.args))
  | "random_js_value" => .ok (some Build.randomScriptValue)
  | "wasm_value_of" => do return some (Build.wasmValueOf (← o.member "ty"))
  | "random_function" => .ok (some (Generate.randomWasmFunction Build.nested))
  | name => do
    return (← firstOf (scriptValue? o name) (wasmValue? o name)).map fun u => Build.value u.1 u.2

/-- An action that yields nothing. -/
def silentAction? (o : Operands) : String → Read (Option (Build Unit))
  | "return" => do return some (Build.giveBack (← o.var? "value"))
  | "wasm_return" => do return some (Build.wasmGiveBack (← o.var? "value"))
  | "append" => do
    let i ← o.instruction
    return some (modify (·.append i))
  | "hide" => do return some (Build.hide (← o.var "var"))
  | "unhide" => do return some (Build.unhide (← o.var "var"))
  | "prefix" => .ok (some Build.values)
  | "build" => do return some (Build.build (← o.word64 "n").toNat)
  | "build_recursive" => .ok (some Build.nested)
  | "template" => do
    let template : Template ← o.member "name"
    return some template.code
  | "begin_adoption" => .ok (some Build.beginAdoption)
  | "adopt" => do return some (Build.adopt (← o.instruction))
  | "adopt_as" => do return some (Build.adoptAs (← o.instruction) (← o.operation) (← o.args))
  | "adopt_program" =>
    .ok (some (((o.bindings.last?.map (·.instructions)).getD []).forM Build.adopt))
  | "reset" => .ok (some (modify (·.reset)))
  | name => do return (← effect? o name).map fun u => Build.perform u.1 u.2

/-! ### Questions -/

/-- The predicates on types, by name. -/
def predicates : List (String × (StaticType → Bool)) := [
  ("js_value", StaticType.isScriptValue), ("number", StaticType.isNumber),
  ("callable", StaticType.isCallable), ("object_like", StaticType.isObjectLike),
  ("wasm_module", StaticType.isWasmModule), ("wasm_exports", StaticType.isWasmExports),
  ("js_wasm_global", StaticType.isGlobalObject), ("js_wasm_memory", StaticType.isMemoryObject),
  ("js_wasm_table", StaticType.isTableObject), ("any_wasm_value", StaticType.isAnyWasmValue),
  ("numeric_wasm_value", StaticType.isNumericWasmValue), ("label", StaticType.isLabel),
  ("module_entity", fun t => t.entity?.isSome), ("any", fun _ => true)]

def Operands.predicate (o : Operands) : Read (StaticType → Bool) :=
  o.need "predicate" fun v => do
    let name ← v.toText?
    return (← predicates.find? fun p => p.1 == name).2

/-- A natural as an answer. -/
def natJson (n : Nat) : Json := .ofNat n

/-- A variable as an answer. -/
def variableJson (v : Variable) : Json := natJson v.number.toNat

/-- Variables as an answer. -/
def variablesJson (vs : List Variable) : Json := .ofList variableJson vs

/-- A double by its word; a NaN has no word of its own. -/
def doubleJson (x : Double) : Json :=
  .string (if x.isNaN then "nan" else paddedHex 16 x.bits.toNat)

/-- A draw whose result is shown as a text. -/
def drawText? : String → Option (Draw String)
  | "u32" => some do return natText (← Draw.next32).toNat
  | "u64" => some do return natText (← Draw.next64).toNat
  | "byte" => some do return natText (← Draw.byte).toNat
  | "bool" => some do return boolText (← Draw.chance 50)
  | _ => none

/-- A summary of a builder. -/
def stateJson (b : Builder) : Json :=
  .object [("len", natJson b.size), ("empty", .bool (b.size == 0)),
    ("context", natJson b.scopes.context.bits.toNat), ("depth", natJson b.scopes.depth),
    ("recursion", natJson b.recursionDepth), ("active", natJson b.generators.size),
    ("builtins", natJson b.toolbox.environment.builtins.names.length),
    ("typed", .bool (b.typer.knows ⟨0⟩))]

/-- Runs a template that is drawn by weight. -/
def randomTemplate : Build (Option Template) := do
  let templates ← Build.look (·.toolbox.templates)
  match ← templates.choose with
  | none => return none
  | some t =>
    t.code
    return some t

/-- An answer as it is shown, with the variables that a later step may refer to. -/
structure Answer where
  shown : Json
  yielded : List Variable

/-- Variables that are shown as a list. -/
def Answer.ofVariables (vs : List Variable) : Answer := ⟨variablesJson vs, vs⟩

/-- A variable that may be absent. -/
def Answer.ofVariable? (v? : Option Variable) : Answer :=
  ⟨.ofOption variableJson v?, v?.toList⟩

/-- A question whose answer is a variable, if there is one. -/
def askedVariable? (b : Build (Option Variable)) : Read (Option (Build Answer)) :=
  .ok (some (Answer.ofVariable? <$> b))

/-- A question whose answer is a list of variables. -/
def askedVariables (b : Build (List Variable)) : Read (Option (Build Answer)) :=
  .ok (some (Answer.ofVariables <$> b))

/-- A question whose answer is not a variable. -/
def asked {α : Type} (encode : α → Json) (b : Build α) : Read (Option (Build Answer)) :=
  .ok (some ((fun a => ⟨encode a, []⟩) <$> b))

/-- An action that draws a value. -/
def drawAction? (o : Operands) : String → Read (Option (Build Answer))
  | "pick" => do askedVariable? (Build.randomVariable (← o.predicate))
  | "pick_type" => do
    askedVariable? (Build.randomOfType (← o.need "type" StaticType.ofJson?))
  | "random_variable" => askedVariable? (Build.randomVariable StaticType.isScriptValue)
  | "rng" => do
    let draws ← o.need "draws" (·.toList? fun v => v.toText?.bind drawText?)
    asked (.ofList .string) (Build.draw (draws.mapM id))
  | "random_integer" => asked .ofInt Build.randomInteger
  | "random_float" => asked doubleJson Build.randomFloat
  | "random_string" => asked .string Build.randomString
  | "random_property_name" => asked .string Build.randomPropertyName
  | "random_method_name" => do asked .string (Build.randomMethodName (← o.var "object"))
  | "random_builtin" => asked .string Build.randomBuiltin
  | "random_parameter_count" => asked natJson Build.randomParameterCount
  | "random_arguments" => do
    askedVariables (Build.randomArguments (← o.var "function"))
  | "random_numeric_type" => asked .ofMember Build.randomNumericType
  | "random_wasm_literal" => do
    asked (.string ·.text) (Build.randomLiteral (← o.member "ty"))
  | "random_wasm_signature" => asked (.string ·.text) Build.randomSignature
  | "run_random" => asked .bool Build.runRandom
  | "generator" => do
    asked .bool (Build.runGenerator (← o.need "name" fun v => v.toText?.bind Generator.ofName?))
  | "random_template" => asked (.ofOption .ofMember) randomTemplate
  | _ => .ok none

/-- An action that yields something else than a new variable. -/
def queryAction? (o : Operands) : String → Read (Option (Build Answer))
  | "is_hidden" => do
    let v ← o.var "var"
    asked .bool (Build.look (·.hidden.contains v))
  | "visible" => askedVariables (Build.look (·.visibleVariables))
  | "type_of" => do asked StaticType.toJson (Build.typeOf (← o.var "var"))
  | "has" => do
    let accepts ← o.predicate
    asked .bool (Build.look (·.hasVariable accepts))
  | "can_import" => do
    let c ← o.member "category"
    asked .bool (Build.look (·.canImport c))
  | "count" => do
    let c ← o.member "category"
    asked natJson (Build.look (·.entityCount c))
  | "infer" => do
    let op ← o.operation
    let inputs ← o.args
    asked (.ofList StaticType.toJson) (Build.look (·.typer.outputTypes op inputs))
  | "state" => asked id (Build.look stateJson)
  | "map" => do
    let v ← o.var "var"
    askedVariable? (Build.look (·.renamed? v))
  | "adopted_inputs" => do askedVariables (Build.adoptedInputs (← o.instruction))
  | name => drawAction? o name

end EngineFuzz.Recipe
