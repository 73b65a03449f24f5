import EngineFuzz.Program.Instruction
import EngineFuzz.Random.Weighted

/-!
# Generators

A generator appends a few instructions to the program under construction.  This module lists the
generators and says where each may run, what it reads and how often it is drawn.

* `Generator.info`: name, weight, context and inputs of a generator.
* `Generator.standard`: the generators that take part by default.
-/

namespace EngineFuzz

/-- What a generator reads. -/
inductive InputContract where
  | none
  /-- Any visible script value. -/
  | one
  /-- A visible variable of an accepted type; without one the generator is not eligible. -/
  | required (accepts : StaticType → Bool)
  /-- A visible variable of an accepted type, or else any script value. -/
  | preferred (accepts : StaticType → Bool)

/-- The generators, by what they append. -/
inductive Generator where
  -- script values
  | integer | bigInt | float | string | boolean | undefined | null | regExp | builtin
  | objectLiteral | array | integerArray | floatArray | typedArray | trivialFunction
  -- script operations and control flow
  | propertyRetrieval | propertyAssignment | propertyRemoval | elementRetrieval
  | elementAssignment | computedPropertyRetrieval | computedPropertyAssignment | methodCall
  | functionCall | constructorCall | apiMethodCall | binaryOperation | unaryOperation
  | comparison | numberComputation | reassignment | plainFunction | ifElse | repeatLoop | tryCatch
  | returnValue | loopBreak | loopContinue | throwValue
  -- WebAssembly seen from the script
  | wasmModule | wasmInstantiate | wasmExportCall | wasmMemoryOperations | wasmGlobal | wasmMemory
  | wasmTable | wasmMemoryBoundary | wasmConcurrentAccess | wasmMemoryAccess | wasmSimd
  | wasmRandomBytes
  -- module bodies
  | wasmDefineGlobal | wasmImportGlobal | wasmDefineTable | wasmImportTable | wasmDefineMemory
  | wasmImportMemory | wasmImportFunction | wasmFunction
  -- function bodies
  | wasmConst | wasmIntBinary | wasmIntUnary | wasmIntEqz | wasmIntCompare | wasmFloatBinary
  | wasmFloatUnary | wasmFloatCompare | wasmGlobalLoad | wasmGlobalStore | wasmTableGet
  | wasmTableSet | wasmMemoryLoad | wasmMemoryStore | wasmCall | wasmReassign | wasmBlock
  | wasmLoop | wasmIf | wasmBranch | wasmBranchIf | wasmReturn | wasmUnreachable
  -- objects that share few property names
  | primitiveValue | mapObject | objectMaker | mapPropertyStore | mapPropertyLoad
  | functionDefinition | singleCall | repeatedCall
deriving DecidableEq, Repr, Inhabited

/-- What has to be known of a generator to draw it. -/
structure GeneratorInfo where
  name : String
  weight : UInt32
  /-- The context that a position has to provide. -/
  context : Context
  inputs : InputContract := .none
  /-- Whether it builds nested code. -/
  isRecursive : Bool := false

namespace StaticType

/-- Arrays. -/
def isArray (t : StaticType) : Bool := t == .array

/-- Truth values. -/
def isBoolean (t : StaticType) : Bool := t == .boolean

/-- An object without a group. -/
def isPlainObject (t : StaticType) : Bool := t == .object none

/-- Globals inside a module. -/
def isGlobalEntity : StaticType → Bool
  | wasmEntity (.global ..) => true
  | _ => false

/-- Globals inside a module that may be written. -/
def isMutableGlobalEntity : StaticType → Bool
  | wasmEntity (.global _ true) => true
  | _ => false

/-- Tables inside a module. -/
def isTableEntity : StaticType → Bool
  | wasmEntity (.table ..) => true
  | _ => false

/-- Memories inside a module. -/
def isMemoryEntity : StaticType → Bool
  | wasmEntity (.memory ..) => true
  | _ => false

/-- Functions inside a module. -/
def isFunctionEntity : StaticType → Bool
  | wasmEntity (.function _) => true
  | _ => false

end StaticType

namespace GeneratorInfo

/-- A generator that runs in script code. -/
def script (name : String) (weight : UInt32) (inputs : InputContract) : GeneratorInfo :=
  { name, weight, context := .script, inputs }

/-- A generator that runs in a module body. -/
def inModule (name : String) (weight : UInt32) (inputs : InputContract) : GeneratorInfo :=
  { name, weight, context := .wasmModule, inputs }

/-- A generator that runs in a function body. -/
def inFunction (name : String) (weight : UInt32) (inputs : InputContract) : GeneratorInfo :=
  { name, weight, context := .wasmFunction, inputs }

/-- Marks a generator as one that builds nested code. -/
def recursive (i : GeneratorInfo) : GeneratorInfo := { i with isRecursive := true }

/-- The name, the context and whether the generator is recursive, as text. -/
def text (i : GeneratorInfo) : String :=
  recordText "CodeGenerator" [("name", quoted i.name), ("context", i.context.text),
    ("recursive", boolText i.isRecursive)]

/-- Also requires the position to be in a part of a function or loop. -/
def within (i : GeneratorInfo) (context : Context) : GeneratorInfo :=
  { i with context := i.context.union context }

end GeneratorInfo

namespace Generator

open GeneratorInfo in
/-- What is known about each generator. -/
def info : Generator → GeneratorInfo
  | integer => script "IntegerGenerator" 20 .none
  | bigInt => script "BigIntGenerator" 10 .none
  | float => script "FloatGenerator" 10 .none
  | string => script "StringGenerator" 10 .none
  | boolean => script "BooleanGenerator" 2 .none
  | undefined => script "UndefinedGenerator" 1 .none
  | null => script "NullGenerator" 1 .none
  | regExp => script "RegExpGenerator" 5 .none
  | builtin => script "BuiltinGenerator" 10 .none
  | objectLiteral => script "ObjectLiteralGenerator" 10 .none
  | array => script "ArrayGenerator" 10 .none
  | integerArray => script "IntArrayGenerator" 10 .none
  | floatArray => script "FloatArrayGenerator" 10 .none
  | typedArray => script "TypedArrayGenerator" 20 .none
  | trivialFunction => script "TrivialFunctionGenerator" 10 .none
  | propertyRetrieval =>
    script "PropertyRetrievalGenerator" 30 (.preferred StaticType.isObjectLike)
  | propertyAssignment =>
    script "PropertyAssignmentGenerator" 30 (.preferred StaticType.isObjectLike)
  | propertyRemoval => script "PropertyRemovalGenerator" 5 (.preferred StaticType.isObjectLike)
  | elementRetrieval => script "ElementRetrievalGenerator" 20 (.preferred StaticType.isArray)
  | elementAssignment => script "ElementAssignmentGenerator" 20 (.preferred StaticType.isArray)
  | computedPropertyRetrieval =>
    script "ComputedPropertyRetrievalGenerator" 20 (.preferred StaticType.isObjectLike)
  | computedPropertyAssignment =>
    script "ComputedPropertyAssignmentGenerator" 20 (.preferred StaticType.isObjectLike)
  | methodCall => script "MethodCallGenerator" 20 (.preferred StaticType.isObjectLike)
  | functionCall => script "FunctionCallGenerator" 20 (.required StaticType.isCallable)
  | constructorCall => script "ConstructorCallGenerator" 10 (.required StaticType.isCallable)
  | apiMethodCall => script "ApiMethodCallGenerator" 15 .none
  | binaryOperation => script "BinaryOperationGenerator" 30 .one
  | unaryOperation => script "UnaryOperationGenerator" 10 .one
  | comparison => script "ComparisonGenerator" 10 .one
  | numberComputation => script "NumberComputationGenerator" 40 .none
  | reassignment => script "ReassignmentGenerator" 10 .one
  | plainFunction => (script "PlainFunctionGenerator" 15 .none).recursive
  | ifElse => (script "IfElseGenerator" 10 (.preferred StaticType.isBoolean)).recursive
  | repeatLoop => (script "RepeatLoopGenerator" 10 .none).recursive
  | tryCatch => (script "TryCatchGenerator" 5 .none).recursive
  | returnValue => (script "ReturnGenerator" 3 .none).within .subroutine
  | loopBreak => (script "LoopBreakGenerator" 2 .none).within .loop
  | loopContinue => (script "LoopContinueGenerator" 2 .none).within .loop
  | throwValue => script "ThrowGenerator" 1 .one
  | wasmModule => (script "WasmGenerator" 50 .none).recursive
  | wasmInstantiate => script "WasmInstantiateGenerator" 30 (.required StaticType.isWasmModule)
  | wasmExportCall => script "WasmExportCallGenerator" 40 (.required StaticType.isWasmExports)
  | wasmMemoryOperations =>
    script "WasmMemoryOperationsGenerator" 40 (.required StaticType.isWasmExports)
  | wasmGlobal => script "WasmGlobalGenerator" 40 (.preferred StaticType.isWasmExports)
  | wasmMemory => script "WasmMemoryGenerator" 40 (.preferred StaticType.isMemoryObject)
  | wasmTable => script "WasmTableGenerator" 40 .none
  | wasmMemoryBoundary => script "WasmMemoryBoundaryTest" 30 .none
  | wasmConcurrentAccess => script "WasmConcurrentAccessTest" 25 .none
  | wasmMemoryAccess => script "WasmMemoryFuzzer" 45 .none
  | wasmSimd => script "WasmSIMDFuzzer" 45 .none
  | wasmRandomBytes => script "RandomWasmBytesGenerator" 40 .none
  | wasmDefineGlobal => inModule "WasmDefineGlobalGenerator" 10 .none
  | wasmImportGlobal =>
    inModule "WasmImportGlobalGenerator" 10 (.required StaticType.isGlobalObject)
  | wasmDefineTable => inModule "WasmDefineTableGenerator" 5 .none
  | wasmImportTable => inModule "WasmImportTableGenerator" 5 (.required StaticType.isTableObject)
  | wasmDefineMemory => inModule "WasmDefineMemoryGenerator" 8 .none
  | wasmImportMemory =>
    inModule "WasmImportMemoryGenerator" 5 (.required StaticType.isMemoryObject)
  | wasmImportFunction =>
    inModule "WasmImportFunctionGenerator" 5 (.required StaticType.isCallable)
  | wasmFunction => (inModule "WasmFunctionGenerator" 30 .none).recursive
  | wasmConst => inFunction "WasmConstGenerator" 10 .none
  | wasmIntBinary => inFunction "WasmIntBinaryGenerator" 20 .none
  | wasmIntUnary => inFunction "WasmIntUnaryGenerator" 5 .none
  | wasmIntEqz => inFunction "WasmIntEqzGenerator" 3 .none
  | wasmIntCompare => inFunction "WasmIntCompareGenerator" 8 .none
  | wasmFloatBinary => inFunction "WasmFloatBinaryGenerator" 10 .none
  | wasmFloatUnary => inFunction "WasmFloatUnaryGenerator" 5 .none
  | wasmFloatCompare => inFunction "WasmFloatCompareGenerator" 5 .none
  | wasmGlobalLoad => inFunction "WasmGlobalLoadGenerator" 8 (.required StaticType.isGlobalEntity)
  | wasmGlobalStore =>
    inFunction "WasmGlobalStoreGenerator" 8 (.required StaticType.isMutableGlobalEntity)
  | wasmTableGet => inFunction "WasmTableGetGenerator" 3 (.required StaticType.isTableEntity)
  | wasmTableSet => inFunction "WasmTableSetGenerator" 3 (.required StaticType.isTableEntity)
  | wasmMemoryLoad =>
    inFunction "WasmMemoryLoadGenerator" 10 (.required StaticType.isMemoryEntity)
  | wasmMemoryStore =>
    inFunction "WasmMemoryStoreGenerator" 10 (.required StaticType.isMemoryEntity)
  | wasmCall => inFunction "WasmCallGenerator" 10 (.required StaticType.isFunctionEntity)
  | wasmReassign => inFunction "WasmReassignGenerator" 5 (.required StaticType.isAnyWasmValue)
  | wasmBlock => (inFunction "WasmBlockGenerator" 5 .none).recursive
  | wasmLoop => (inFunction "WasmLoopGenerator" 5 .none).recursive
  | wasmIf => (inFunction "WasmIfGenerator" 5 .none).recursive
  | wasmBranch => inFunction "WasmBranchGenerator" 2 (.required StaticType.isLabel)
  | wasmBranchIf => inFunction "WasmBranchIfGenerator" 3 (.required StaticType.isLabel)
  | wasmReturn => inFunction "WasmReturnGenerator" 2 .none
  | wasmUnreachable => inFunction "WasmUnreachableGenerator" 1 .none
  | primitiveValue => script "PrimitiveValue" 2 .none
  | mapObject => script "CreateObject" 1 .none
  | objectMaker => script "ObjectMaker" 1 .none
  | mapPropertyStore => script "PropertyStore" 10 (.required StaticType.isPlainObject)
  | mapPropertyLoad => script "PropertyLoad" 10 (.required StaticType.isPlainObject)
  | functionDefinition => (script "FunctionDefinition" 2 .none).recursive
  | singleCall => script "FunctionCall" 3 (.required StaticType.isCallable)
  | repeatedCall => script "FunctionJitCall" 2 (.required StaticType.isCallable)

/-- The name by which settings and messages know the generator. -/
def name (g : Generator) : String := g.info.name

/-! ### Groups -/

/-- Generators of fresh script values. -/
def values : List Generator :=
  [integer, bigInt, float, string, boolean, undefined, null, regExp, builtin, objectLiteral, array,
    integerArray, floatArray, typedArray, trivialFunction]

/-- Generators of script operations and control flow. -/
def scriptCode : List Generator :=
  [propertyRetrieval, propertyAssignment, propertyRemoval, elementRetrieval, elementAssignment,
    computedPropertyRetrieval, computedPropertyAssignment, methodCall, functionCall,
    constructorCall, apiMethodCall, binaryOperation, unaryOperation, comparison, numberComputation,
    reassignment, plainFunction, ifElse, repeatLoop, tryCatch, returnValue, loopBreak,
    loopContinue, throwValue]

/-- Generators of script code that uses WebAssembly. -/
def wasmUse : List Generator :=
  [wasmModule, wasmInstantiate, wasmExportCall, wasmMemoryOperations, wasmGlobal, wasmMemory,
    wasmTable, wasmMemoryBoundary, wasmConcurrentAccess, wasmMemoryAccess, wasmSimd,
    wasmRandomBytes]

/-- Generators of module bodies. -/
def moduleBody : List Generator :=
  [wasmDefineGlobal, wasmImportGlobal, wasmDefineTable, wasmImportTable, wasmDefineMemory,
    wasmImportMemory, wasmImportFunction, wasmFunction]

/-- Generators of function bodies. -/
def functionBody : List Generator :=
  [wasmConst, wasmIntBinary, wasmIntUnary, wasmIntEqz, wasmIntCompare, wasmFloatBinary,
    wasmFloatUnary, wasmFloatCompare, wasmGlobalLoad, wasmGlobalStore, wasmTableGet, wasmTableSet,
    wasmMemoryLoad, wasmMemoryStore, wasmCall, wasmReassign, wasmBlock, wasmLoop, wasmIf,
    wasmBranch, wasmBranchIf, wasmReturn, wasmUnreachable]

/-- All that WebAssembly needs: values, its use, module bodies and function bodies. -/
def wasm : List Generator := values ++ wasmUse ++ moduleBody ++ functionBody

/-- The generators that take part by default. -/
def standard : List Generator := values ++ scriptCode ++ wasmUse ++ moduleBody ++ functionBody

/-- Generators for objects that share few property names. -/
def mapTransition : List Generator :=
  [primitiveValue, mapObject, objectMaker, mapPropertyStore, mapPropertyLoad, functionDefinition,
    singleCall, repeatedCall]

/-- The standard generator with a name. -/
def ofName? (name : String) : Option Generator := standard.find? fun g => g.name == name

/-- Generators with their built-in weights. -/
def weighted (generators : List Generator) : WeightedList Generator :=
  ⟨generators.map fun g => (g, g.info.weight)⟩

/-- The built-in weights of the standard generators. -/
def weights : WeightTable := ⟨"generator", standard.map fun g => (g.name, g.info.weight)⟩

end Generator

end EngineFuzz
