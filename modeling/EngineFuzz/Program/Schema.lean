import EngineFuzz.Program.Instruction

/-!
# The schema of operations

Both stored formats write an operation as a variant with named fields.  This module states once
what the variants are: their names, the names and kinds of their fields in order, and how a
payload is read off an operation and put back.

* `Operation.variants`: the variants in the order of their numbers.
* `Operation.toPayload`: number and field values of an operation.
* `Operation.ofPayload?`: the operation with given field values.
-/

namespace EngineFuzz

/-- The kinds of fields. -/
inductive FieldKind where
  /-- A signed 64-bit integer. -/
  | integer
  /-- An unsigned 64-bit integer. -/
  | size
  /-- An unsigned 32-bit integer. -/
  | word
  | optionalWord
  | flag
  | double
  | text
  | texts
  | bytes
  /-- One of finitely many names. -/
  | choice (names : List String)
  | literal
  | signature
deriving DecidableEq, Repr

/-- The value of a field. -/
inductive FieldValue where
  | integer (value : Int64)
  | size (value : UInt64)
  | word (value : UInt32)
  | optionalWord (value : Option UInt32)
  | flag (value : Bool)
  | double (value : Double)
  | text (value : String)
  | texts (value : List String)
  | bytes (value : List UInt8)
  /-- A name, by its position. -/
  | choice (index : Nat)
  | literal (value : WasmLiteral)
  | signature (value : FunctionSignature)
deriving DecidableEq, Repr

/-- A variant: its name, and its fields with their kinds. -/
structure VariantShape where
  name : String
  fields : List (String × FieldKind)
deriving DecidableEq, Repr

namespace FieldKind

/-- The field that holds a member of an enumeration. -/
def ofEnumeration (α : Type) [Enumeration α] : FieldKind := choice (Enumeration.names α)

end FieldKind

namespace FieldValue

/-- A member of an enumeration as a field value. -/
def ofMember {α : Type} [Enumeration α] [BEq α] (a : α) : FieldValue := choice (Enumeration.index a)

end FieldValue

namespace Operation

private def width : String × FieldKind := ("width", .ofEnumeration Width)
private def maximum : String × FieldKind := ("maximum", .optionalWord)
private def minimum : String × FieldKind := ("minimum", .word)
private def element : String × FieldKind := ("element", .ofEnumeration WasmType)
private def numArgs : String × FieldKind := ("num_args", .size)
private def guarded : String × FieldKind := ("guarded", .flag)
private def signature : String × FieldKind := ("signature", .signature)

/-- The variants, by number. -/
def variants : List VariantShape := [
  ⟨"LoadInteger", [("value", .integer)]⟩,
  ⟨"LoadBigInt", [("value", .integer)]⟩,
  ⟨"LoadFloat", [("value", .double)]⟩,
  ⟨"LoadString", [("value", .text)]⟩,
  ⟨"LoadBoolean", [("value", .flag)]⟩,
  ⟨"LoadUndefined", []⟩,
  ⟨"LoadNull", []⟩,
  ⟨"LoadRegExp", [("pattern", .text), ("flags", .text)]⟩,
  ⟨"LoadBuiltin", [("name", .text)]⟩,
  ⟨"CreateObject", [("property_names", .texts)]⟩,
  ⟨"CreateArray", [("size", .size)]⟩,
  ⟨"GetProperty", [("name", .text)]⟩,
  ⟨"SetProperty", [("name", .text)]⟩,
  ⟨"DeleteProperty", [("name", .text)]⟩,
  ⟨"GetElement", [("index", .integer)]⟩,
  ⟨"SetElement", [("index", .integer)]⟩,
  ⟨"GetComputedProperty", []⟩,
  ⟨"SetComputedProperty", []⟩,
  ⟨"CallFunction", [numArgs, guarded]⟩,
  ⟨"CallMethod", [("method", .text), numArgs, guarded]⟩,
  ⟨"Construct", [numArgs, guarded]⟩,
  ⟨"BinaryOperation", [("op", .ofEnumeration BinaryOperator)]⟩,
  ⟨"UnaryOperation", [("op", .ofEnumeration UnaryOperator)]⟩,
  ⟨"Compare", [("op", .ofEnumeration Comparator)]⟩,
  ⟨"Reassign", []⟩,
  ⟨"BeginPlainFunction", [("num_parameters", .size)]⟩,
  ⟨"EndPlainFunction", []⟩,
  ⟨"Return", [("has_value", .flag)]⟩,
  ⟨"BeginIf", []⟩,
  ⟨"BeginElse", []⟩,
  ⟨"EndIf", []⟩,
  ⟨"BeginRepeatLoop", [("iterations", .word)]⟩,
  ⟨"EndRepeatLoop", []⟩,
  ⟨"LoopBreak", []⟩,
  ⟨"LoopContinue", []⟩,
  ⟨"BeginTry", []⟩,
  ⟨"BeginCatch", []⟩,
  ⟨"EndTryCatch", []⟩,
  ⟨"ThrowException", []⟩,
  ⟨"CreateWasmGlobal", [("value", .literal), ("mutable", .flag)]⟩,
  ⟨"CreateWasmMemory", [minimum, maximum, ("shared", .flag)]⟩,
  ⟨"CreateWasmTable", [element, minimum, maximum]⟩,
  ⟨"BeginWasmModule", []⟩,
  ⟨"EndWasmModule", []⟩,
  ⟨"InstantiateWasm", [("num_imports", .size)]⟩,
  ⟨"GetWasmExport", [("export_name", .text)]⟩,
  ⟨"GetWasmMemory", [("memory_index", .word)]⟩,
  ⟨"WriteWasmMemory", [("offset", .size), ("bytes", .bytes)]⟩,
  ⟨"GetWasmGlobal", [("global_name", .text)]⟩,
  ⟨"WasmDefineGlobal", [("value", .literal), ("mutable", .flag)]⟩,
  ⟨"WasmImportGlobal", []⟩,
  ⟨"WasmDefineTable", [element, minimum, maximum]⟩,
  ⟨"WasmImportTable", []⟩,
  ⟨"WasmDefineMemory", [minimum, maximum]⟩,
  ⟨"WasmImportMemory", []⟩,
  ⟨"WasmImportFunction", [signature]⟩,
  ⟨"BeginWasmFunction", [signature]⟩,
  ⟨"EndWasmFunction", [signature]⟩,
  ⟨"WasmConst", [("value", .literal)]⟩,
  ⟨"WasmIntBinary", [width, ("op", .ofEnumeration IntBinaryOp)]⟩,
  ⟨"WasmIntUnary", [width, ("op", .ofEnumeration IntUnaryOp)]⟩,
  ⟨"WasmIntEqz", [width]⟩,
  ⟨"WasmIntCompare", [width, ("op", .ofEnumeration IntCompareOp)]⟩,
  ⟨"WasmFloatBinary", [width, ("op", .ofEnumeration FloatBinaryOp)]⟩,
  ⟨"WasmFloatUnary", [width, ("op", .ofEnumeration FloatUnaryOp)]⟩,
  ⟨"WasmFloatCompare", [width, ("op", .ofEnumeration FloatCompareOp)]⟩,
  ⟨"WasmLoadGlobal", []⟩,
  ⟨"WasmStoreGlobal", []⟩,
  ⟨"WasmTableGet", []⟩,
  ⟨"WasmTableSet", []⟩,
  ⟨"WasmMemoryLoad", [("ty", .ofEnumeration WasmType), ("offset", .size)]⟩,
  ⟨"WasmMemoryStore", [("ty", .ofEnumeration WasmType), ("offset", .size)]⟩,
  ⟨"WasmCallFunction", [signature]⟩,
  ⟨"WasmReassign", []⟩,
  ⟨"WasmReturn", [("has_value", .flag)]⟩,
  ⟨"WasmBeginBlock", []⟩,
  ⟨"WasmEndBlock", []⟩,
  ⟨"WasmBeginLoop", []⟩,
  ⟨"WasmEndLoop", []⟩,
  ⟨"WasmBeginIf", []⟩,
  ⟨"WasmBeginElse", []⟩,
  ⟨"WasmEndIf", []⟩,
  ⟨"WasmBranch", []⟩,
  ⟨"WasmBranchIf", []⟩,
  ⟨"WasmUnreachable", []⟩]

/-- The number of the variant and the values of its fields. -/
def toPayload : Operation → Nat × List FieldValue
  | loadInteger a => (0, [.integer a])
  | loadBigInt a => (1, [.integer a])
  | loadFloat a => (2, [.double a])
  | loadString a => (3, [.text a])
  | loadBoolean a => (4, [.flag a])
  | loadUndefined => (5, [])
  | loadNull => (6, [])
  | loadRegExp a b => (7, [.text a, .text b])
  | loadBuiltin a => (8, [.text a])
  | createObject a => (9, [.texts a])
  | createArray a => (10, [.size a])
  | getProperty a => (11, [.text a])
  | setProperty a => (12, [.text a])
  | deleteProperty a => (13, [.text a])
  | getElement a => (14, [.integer a])
  | setElement a => (15, [.integer a])
  | getComputedProperty => (16, [])
  | setComputedProperty => (17, [])
  | callFunction a b => (18, [.size a, .flag b])
  | callMethod a b c => (19, [.text a, .size b, .flag c])
  | construct a b => (20, [.size a, .flag b])
  | binaryOperation a => (21, [.ofMember a])
  | unaryOperation a => (22, [.ofMember a])
  | compare a => (23, [.ofMember a])
  | reassign => (24, [])
  | beginPlainFunction a => (25, [.size a])
  | endPlainFunction => (26, [])
  | returnValue a => (27, [.flag a])
  | beginIf => (28, [])
  | beginElse => (29, [])
  | endIf => (30, [])
  | beginRepeatLoop a => (31, [.word a])
  | endRepeatLoop => (32, [])
  | loopBreak => (33, [])
  | loopContinue => (34, [])
  | beginTry => (35, [])
  | beginCatch => (36, [])
  | endTryCatch => (37, [])
  | throwException => (38, [])
  | createWasmGlobal a b => (39, [.literal a, .flag b])
  | createWasmMemory a b c => (40, [.word a, .optionalWord b, .flag c])
  | createWasmTable a b c => (41, [.ofMember a, .word b, .optionalWord c])
  | beginWasmModule => (42, [])
  | endWasmModule => (43, [])
  | instantiateWasm a => (44, [.size a])
  | getWasmExport a => (45, [.text a])
  | getWasmMemory a => (46, [.word a])
  | writeWasmMemory a b => (47, [.size a, .bytes b])
  | getWasmGlobal a => (48, [.text a])
  | wasmDefineGlobal a b => (49, [.literal a, .flag b])
  | wasmImportGlobal => (50, [])
  | wasmDefineTable a b c => (51, [.ofMember a, .word b, .optionalWord c])
  | wasmImportTable => (52, [])
  | wasmDefineMemory a b => (53, [.word a, .optionalWord b])
  | wasmImportMemory => (54, [])
  | wasmImportFunction a => (55, [.signature a])
  | beginWasmFunction a => (56, [.signature a])
  | endWasmFunction a => (57, [.signature a])
  | wasmConst a => (58, [.literal a])
  | wasmIntBinary a b => (59, [.ofMember a, .ofMember b])
  | wasmIntUnary a b => (60, [.ofMember a, .ofMember b])
  | wasmIntEqz a => (61, [.ofMember a])
  | wasmIntCompare a b => (62, [.ofMember a, .ofMember b])
  | wasmFloatBinary a b => (63, [.ofMember a, .ofMember b])
  | wasmFloatUnary a b => (64, [.ofMember a, .ofMember b])
  | wasmFloatCompare a b => (65, [.ofMember a, .ofMember b])
  | wasmLoadGlobal => (66, [])
  | wasmStoreGlobal => (67, [])
  | wasmTableGet => (68, [])
  | wasmTableSet => (69, [])
  | wasmMemoryLoad a b => (70, [.ofMember a, .size b])
  | wasmMemoryStore a b => (71, [.ofMember a, .size b])
  | wasmCallFunction a => (72, [.signature a])
  | wasmReassign => (73, [])
  | wasmReturn a => (74, [.flag a])
  | wasmBeginBlock => (75, [])
  | wasmEndBlock => (76, [])
  | wasmBeginLoop => (77, [])
  | wasmEndLoop => (78, [])
  | wasmBeginIf => (79, [])
  | wasmBeginElse => (80, [])
  | wasmEndIf => (81, [])
  | wasmBranch => (82, [])
  | wasmBranchIf => (83, [])
  | wasmUnreachable => (84, [])

/-- The operation of a variant with given field values. -/
def ofPayload? : Nat → List FieldValue → Option Operation
  | 0, [.integer a] => some (loadInteger a)
  | 1, [.integer a] => some (loadBigInt a)
  | 2, [.double a] => some (loadFloat a)
  | 3, [.text a] => some (loadString a)
  | 4, [.flag a] => some (loadBoolean a)
  | 5, [] => some loadUndefined
  | 6, [] => some loadNull
  | 7, [.text a, .text b] => some (loadRegExp a b)
  | 8, [.text a] => some (loadBuiltin a)
  | 9, [.texts a] => some (createObject a)
  | 10, [.size a] => some (createArray a)
  | 11, [.text a] => some (getProperty a)
  | 12, [.text a] => some (setProperty a)
  | 13, [.text a] => some (deleteProperty a)
  | 14, [.integer a] => some (getElement a)
  | 15, [.integer a] => some (setElement a)
  | 16, [] => some getComputedProperty
  | 17, [] => some setComputedProperty
  | 18, [.size a, .flag b] => some (callFunction a b)
  | 19, [.text a, .size b, .flag c] => some (callMethod a b c)
  | 20, [.size a, .flag b] => some (construct a b)
  | 21, [.choice a] => do return binaryOperation (← Enumeration.ofIndex? a)
  | 22, [.choice a] => do return unaryOperation (← Enumeration.ofIndex? a)
  | 23, [.choice a] => do return compare (← Enumeration.ofIndex? a)
  | 24, [] => some reassign
  | 25, [.size a] => some (beginPlainFunction a)
  | 26, [] => some endPlainFunction
  | 27, [.flag a] => some (returnValue a)
  | 28, [] => some beginIf
  | 29, [] => some beginElse
  | 30, [] => some endIf
  | 31, [.word a] => some (beginRepeatLoop a)
  | 32, [] => some endRepeatLoop
  | 33, [] => some loopBreak
  | 34, [] => some loopContinue
  | 35, [] => some beginTry
  | 36, [] => some beginCatch
  | 37, [] => some endTryCatch
  | 38, [] => some throwException
  | 39, [.literal a, .flag b] => some (createWasmGlobal a b)
  | 40, [.word a, .optionalWord b, .flag c] => some (createWasmMemory a b c)
  | 41, [.choice a, .word b, .optionalWord c] =>
    do return createWasmTable (← Enumeration.ofIndex? a) b c
  | 42, [] => some beginWasmModule
  | 43, [] => some endWasmModule
  | 44, [.size a] => some (instantiateWasm a)
  | 45, [.text a] => some (getWasmExport a)
  | 46, [.word a] => some (getWasmMemory a)
  | 47, [.size a, .bytes b] => some (writeWasmMemory a b)
  | 48, [.text a] => some (getWasmGlobal a)
  | 49, [.literal a, .flag b] => some (wasmDefineGlobal a b)
  | 50, [] => some wasmImportGlobal
  | 51, [.choice a, .word b, .optionalWord c] =>
    do return wasmDefineTable (← Enumeration.ofIndex? a) b c
  | 52, [] => some wasmImportTable
  | 53, [.word a, .optionalWord b] => some (wasmDefineMemory a b)
  | 54, [] => some wasmImportMemory
  | 55, [.signature a] => some (wasmImportFunction a)
  | 56, [.signature a] => some (beginWasmFunction a)
  | 57, [.signature a] => some (endWasmFunction a)
  | 58, [.literal a] => some (wasmConst a)
  | 59, [.choice a, .choice b] =>
    do return wasmIntBinary (← Enumeration.ofIndex? a) (← Enumeration.ofIndex? b)
  | 60, [.choice a, .choice b] =>
    do return wasmIntUnary (← Enumeration.ofIndex? a) (← Enumeration.ofIndex? b)
  | 61, [.choice a] => do return wasmIntEqz (← Enumeration.ofIndex? a)
  | 62, [.choice a, .choice b] =>
    do return wasmIntCompare (← Enumeration.ofIndex? a) (← Enumeration.ofIndex? b)
  | 63, [.choice a, .choice b] =>
    do return wasmFloatBinary (← Enumeration.ofIndex? a) (← Enumeration.ofIndex? b)
  | 64, [.choice a, .choice b] =>
    do return wasmFloatUnary (← Enumeration.ofIndex? a) (← Enumeration.ofIndex? b)
  | 65, [.choice a, .choice b] =>
    do return wasmFloatCompare (← Enumeration.ofIndex? a) (← Enumeration.ofIndex? b)
  | 66, [] => some wasmLoadGlobal
  | 67, [] => some wasmStoreGlobal
  | 68, [] => some wasmTableGet
  | 69, [] => some wasmTableSet
  | 70, [.choice a, .size b] => do return wasmMemoryLoad (← Enumeration.ofIndex? a) b
  | 71, [.choice a, .size b] => do return wasmMemoryStore (← Enumeration.ofIndex? a) b
  | 72, [.signature a] => some (wasmCallFunction a)
  | 73, [] => some wasmReassign
  | 74, [.flag a] => some (wasmReturn a)
  | 75, [] => some wasmBeginBlock
  | 76, [] => some wasmEndBlock
  | 77, [] => some wasmBeginLoop
  | 78, [] => some wasmEndLoop
  | 79, [] => some wasmBeginIf
  | 80, [] => some wasmBeginElse
  | 81, [] => some wasmEndIf
  | 82, [] => some wasmBranch
  | 83, [] => some wasmBranchIf
  | 84, [] => some wasmUnreachable
  | _, _ => none

end Operation

end EngineFuzz
