import EngineFuzz.Program.Operator
import EngineFuzz.Program.StaticType

/-!
# Operations

The closed set of operations of the program format.  Each operation carries its payload; how many
operands it has, which flags it bears, which block it opens or closes and where it may stand all
follow from the operation.

* `Operation.numInputs`, `Operation.numOutputs`, `Operation.numInnerOutputs`: the arity.
* `Operation.blockKind?`, `Operation.isBlockStart`, `Operation.isBlockEnd`: the block structure.
* `Operation.requiredContext`, `Operation.innerContext`: the contexts.
-/

namespace EngineFuzz

/-- The contexts that a position is in, as a set of bits. -/
structure Context where
  bits : UInt8
deriving DecidableEq, Repr, Inhabited

namespace Context

/-- No context at all. -/
def empty : Context := ⟨0⟩

/-- Code of the script. -/
def script : Context := ⟨1⟩

/-- Inside a function of the script. -/
def subroutine : Context := ⟨2⟩

/-- Inside a loop of the script. -/
def loop : Context := ⟨4⟩

/-- The body of a module. -/
def wasmModule : Context := ⟨8⟩

/-- The body of a function of a module. -/
def wasmFunction : Context := ⟨16⟩

/-- Whether every context of the second set is in the first. -/
def contains (c d : Context) : Bool := c.bits &&& d.bits == d.bits

/-- The contexts of both sets. -/
def union (c d : Context) : Context := ⟨c.bits ||| d.bits⟩

/-- Whether script code may stand there. -/
def isScript (c : Context) : Bool := c.contains script

/-- Whether the body of a module may stand there. -/
def isWasmModule (c : Context) : Bool := c.contains wasmModule

/-- Whether code of a function of a module may stand there. -/
def isWasmFunction (c : Context) : Bool := c.contains wasmFunction

/-- The bits as a number. -/
def text (c : Context) : String := "Context(" ++ natText c.bits.toNat ++ ")"

end Context

/-- The kinds of blocks. -/
inductive BlockKind where
  | plainFunction | branch | repeatLoop | tryCatch
  | wasmModule | wasmFunction | wasmBlock | wasmLoop | wasmIf
deriving DecidableEq, Repr, Inhabited

instance : Enumeration BlockKind where
  all := [.plainFunction, .branch, .repeatLoop, .tryCatch, .wasmModule, .wasmFunction,
    .wasmBlock, .wasmLoop, .wasmIf]
  name
    | .plainFunction => "PlainFunction" | .branch => "If" | .repeatLoop => "RepeatLoop"
    | .tryCatch => "TryCatch" | .wasmModule => "WasmModule" | .wasmFunction => "WasmFunction"
    | .wasmBlock => "WasmBlock" | .wasmLoop => "WasmLoop" | .wasmIf => "WasmIf"

/-- The name of the kind. -/
def BlockKind.text (k : BlockKind) : String := Enumeration.name k

/-- An operation with its payload. -/
inductive Operation where
  -- values of the script
  | loadInteger (value : Int64)
  | loadBigInt (value : Int64)
  | loadFloat (value : Double)
  | loadString (value : String)
  | loadBoolean (value : Bool)
  | loadUndefined
  | loadNull
  | loadRegExp (pattern flags : String)
  | loadBuiltin (name : String)
  | createObject (propertyNames : List String)
  | createArray (size : UInt64)
  -- properties and elements
  | getProperty (name : String)
  | setProperty (name : String)
  | deleteProperty (name : String)
  | getElement (index : Int64)
  | setElement (index : Int64)
  | getComputedProperty
  | setComputedProperty
  -- calls and operators
  | callFunction (numArgs : UInt64) (guarded : Bool)
  | callMethod (method : String) (numArgs : UInt64) (guarded : Bool)
  | construct (numArgs : UInt64) (guarded : Bool)
  | binaryOperation (op : BinaryOperator)
  | unaryOperation (op : UnaryOperator)
  | compare (op : Comparator)
  | reassign
  -- control flow of the script
  | beginPlainFunction (numParameters : UInt64)
  | endPlainFunction
  | returnValue (hasValue : Bool)
  | beginIf
  | beginElse
  | endIf
  | beginRepeatLoop (iterations : UInt32)
  | endRepeatLoop
  | loopBreak
  | loopContinue
  | beginTry
  | beginCatch
  | endTryCatch
  | throwException
  -- WebAssembly seen from the script
  | createWasmGlobal (value : WasmLiteral) (isMutable : Bool)
  | createWasmMemory (minimum : UInt32) (maximum : Option UInt32) (shared : Bool)
  | createWasmTable (element : WasmType) (minimum : UInt32) (maximum : Option UInt32)
  | beginWasmModule
  /-- Yields the module and the exports of an instance made with the declared imports. -/
  | endWasmModule
  | instantiateWasm (numImports : UInt64)
  | getWasmExport (exportName : String)
  | getWasmMemory (memoryIndex : UInt32)
  | writeWasmMemory (offset : UInt64) (bytes : List UInt8)
  | getWasmGlobal (globalName : String)
  -- module bodies
  | wasmDefineGlobal (value : WasmLiteral) (isMutable : Bool)
  | wasmImportGlobal
  | wasmDefineTable (element : WasmType) (minimum : UInt32) (maximum : Option UInt32)
  | wasmImportTable
  | wasmDefineMemory (minimum : UInt32) (maximum : Option UInt32)
  | wasmImportMemory
  | wasmImportFunction (signature : FunctionSignature)
  | beginWasmFunction (signature : FunctionSignature)
  | endWasmFunction (signature : FunctionSignature)
  -- function bodies
  | wasmConst (value : WasmLiteral)
  | wasmIntBinary (width : Width) (op : IntBinaryOp)
  | wasmIntUnary (width : Width) (op : IntUnaryOp)
  | wasmIntEqz (width : Width)
  | wasmIntCompare (width : Width) (op : IntCompareOp)
  | wasmFloatBinary (width : Width) (op : FloatBinaryOp)
  | wasmFloatUnary (width : Width) (op : FloatUnaryOp)
  | wasmFloatCompare (width : Width) (op : FloatCompareOp)
  | wasmLoadGlobal
  | wasmStoreGlobal
  | wasmTableGet
  | wasmTableSet
  | wasmMemoryLoad (type : WasmType) (offset : UInt64)
  | wasmMemoryStore (type : WasmType) (offset : UInt64)
  | wasmCallFunction (signature : FunctionSignature)
  | wasmReassign
  | wasmReturn (hasValue : Bool)
  | wasmBeginBlock
  | wasmEndBlock
  | wasmBeginLoop
  | wasmEndLoop
  | wasmBeginIf
  | wasmBeginElse
  | wasmEndIf
  | wasmBranch
  | wasmBranchIf
  | wasmUnreachable
deriving DecidableEq, Repr, Inhabited

namespace Operation

/-! ### Arity

Counts that a payload gives are 64-bit words, and so is their sum with the operand in front. -/

/-- How many variables the operation reads. -/
def numInputs : Operation → Nat
  | createObject propertyNames => propertyNames.length
  | createArray size => size.toNat
  | getProperty _ | deleteProperty _ | getElement _ => 1
  | setProperty _ | setElement _ | getComputedProperty => 2
  | setComputedProperty => 3
  | callFunction numArgs _ | callMethod _ numArgs _ | construct numArgs _ => (1 + numArgs).toNat
  | binaryOperation _ | compare _ | reassign => 2
  | unaryOperation _ => 1
  | returnValue hasValue => hasValue.toNat
  | beginIf => 1
  | throwException => 1
  | instantiateWasm numImports => (1 + numImports).toNat
  | getWasmExport _ | getWasmMemory _ | writeWasmMemory .. | getWasmGlobal _ => 1
  | wasmImportGlobal | wasmImportTable | wasmImportMemory | wasmImportFunction _ => 1
  | endWasmFunction signature => signature.results.length
  | wasmIntBinary .. | wasmIntCompare .. | wasmFloatBinary .. | wasmFloatCompare .. => 2
  | wasmIntUnary .. | wasmIntEqz _ | wasmFloatUnary .. => 1
  | wasmLoadGlobal => 1
  | wasmStoreGlobal | wasmTableGet => 2
  | wasmTableSet => 3
  | wasmMemoryLoad .. => 2
  | wasmMemoryStore .. => 3
  | wasmCallFunction signature => 1 + signature.params.length
  | wasmReassign => 2
  | wasmReturn hasValue => hasValue.toNat
  | wasmBeginIf => 1
  | wasmBranch => 1
  | wasmBranchIf => 2
  | _ => 0

/-- How many variables the operation defines. -/
def numOutputs : Operation → Nat
  | setProperty _ | setElement _ | setComputedProperty | reassign
  | endPlainFunction | returnValue _ | beginIf | beginElse | endIf
  | beginRepeatLoop _ | endRepeatLoop | loopBreak | loopContinue | beginTry
  | beginCatch | endTryCatch | throwException | beginWasmModule
  | writeWasmMemory .. | beginWasmFunction _ | wasmStoreGlobal
  | wasmTableSet | wasmMemoryStore .. | wasmReassign | wasmReturn _
  | wasmBeginBlock | wasmEndBlock | wasmBeginLoop | wasmEndLoop | wasmBeginIf
  | wasmBeginElse | wasmEndIf | wasmBranch | wasmBranchIf | wasmUnreachable => 0
  | endWasmModule => 2
  | wasmCallFunction signature => signature.results.length
  | _ => 1

/-- How many variables are defined inside the block that the operation opens. -/
def numInnerOutputs : Operation → Nat
  | beginPlainFunction numParameters => numParameters.toNat
  | beginRepeatLoop _ | beginCatch => 1
  | beginWasmFunction signature => signature.params.length
  | wasmBeginBlock | wasmBeginLoop | wasmBeginIf | wasmBeginElse => 1
  | _ => 0

/-! ### Flags -/

/-- No effects, and the output depends on nothing but payload and inputs. -/
def isPure : Operation → Bool
  | loadInteger _ | loadBigInt _ | loadFloat _ | loadString _ | loadBoolean _
  | loadUndefined | loadNull | loadBuiltin _ | wasmConst _ => true
  | _ => false

/-- Whether other code runs as part of the operation. -/
def isCall : Operation → Bool
  | callFunction .. | callMethod .. | construct .. | instantiateWasm _
  | wasmCallFunction _ => true
  | _ => false

/-- Whether exceptions of the operation are caught on the spot. -/
def isGuarded : Operation → Bool
  | callFunction _ guarded | callMethod _ _ guarded | construct _ guarded => guarded
  | instantiateWasm _ | writeWasmMemory .. => true
  | _ => false

/-- Whether the operation opens a block, or the second part of one. -/
def isBlockStart : Operation → Bool
  | beginPlainFunction _ | beginIf | beginElse | beginRepeatLoop _ | beginTry | beginCatch
  | beginWasmModule | beginWasmFunction _ | wasmBeginBlock | wasmBeginLoop | wasmBeginIf
  | wasmBeginElse => true
  | _ => false

/-- Whether the operation closes a block, or the first part of one. -/
def isBlockEnd : Operation → Bool
  | beginElse | beginCatch | wasmBeginElse | endPlainFunction | endIf | endRepeatLoop
  | endTryCatch | endWasmModule | endWasmFunction _ | wasmEndBlock | wasmEndLoop
  | wasmEndIf => true
  | _ => false

/-- Whether control never goes on to the next operation. -/
def isJump : Operation → Bool
  | returnValue _ | throwException | loopBreak | loopContinue | wasmReturn _ | wasmBranch
  | wasmUnreachable => true
  | _ => false

/-- Whether the operation deals with WebAssembly from the script's side. -/
def isWasmAccess : Operation → Bool
  | instantiateWasm _ | getWasmExport _ | getWasmMemory _ | writeWasmMemory ..
  | getWasmGlobal _ => true
  | _ => false

/-- The kind of the block that the operation opens, continues or closes. -/
def blockKind? : Operation → Option BlockKind
  | beginPlainFunction _ | endPlainFunction => some .plainFunction
  | beginIf | beginElse | endIf => some .branch
  | beginRepeatLoop _ | endRepeatLoop => some .repeatLoop
  | beginTry | beginCatch | endTryCatch => some .tryCatch
  | beginWasmModule | endWasmModule => some .wasmModule
  | beginWasmFunction _ | endWasmFunction _ => some .wasmFunction
  | wasmBeginBlock | wasmEndBlock => some .wasmBlock
  | wasmBeginLoop | wasmEndLoop => some .wasmLoop
  | wasmBeginIf | wasmBeginElse | wasmEndIf => some .wasmIf
  | _ => none

/-! ### Contexts -/

/-- The context that a position has to provide.  Operations that continue or close a block of the
script are matched with its beginning instead. -/
def requiredContext : Operation → Context
  | returnValue _ => .subroutine
  | loopBreak | loopContinue => .loop
  | beginElse | endIf | endRepeatLoop | endPlainFunction | beginCatch | endTryCatch => .empty
  | endWasmModule | wasmDefineGlobal .. | wasmImportGlobal | wasmDefineTable ..
  | wasmImportTable | wasmDefineMemory .. | wasmImportMemory | wasmImportFunction _
  | beginWasmFunction _ => .wasmModule
  | endWasmFunction _ | wasmConst _ | wasmIntBinary .. | wasmIntUnary .. | wasmIntEqz _
  | wasmIntCompare .. | wasmFloatBinary .. | wasmFloatUnary .. | wasmFloatCompare ..
  | wasmLoadGlobal | wasmStoreGlobal | wasmTableGet | wasmTableSet | wasmMemoryLoad ..
  | wasmMemoryStore .. | wasmCallFunction _ | wasmReassign | wasmReturn _
  | wasmBeginBlock | wasmEndBlock | wasmBeginLoop | wasmEndLoop | wasmBeginIf
  | wasmBeginElse | wasmEndIf | wasmBranch | wasmBranchIf | wasmUnreachable => .wasmFunction
  | _ => .script

/-- The context inside the block that the operation opens. -/
def innerContext (outer : Context) : Operation → Context
  | beginPlainFunction _ => .union .script .subroutine
  | beginRepeatLoop _ => outer.union .loop
  | beginWasmModule => .wasmModule
  | beginWasmFunction _ | wasmBeginBlock | wasmBeginLoop | wasmBeginIf
  | wasmBeginElse => .wasmFunction
  | _ => outer

/-! ### Text -/

/-- The name of the operation in every text. -/
def name : Operation → String
  | loadInteger _ => "LoadInteger"
  | loadBigInt _ => "LoadBigInt"
  | loadFloat _ => "LoadFloat"
  | loadString _ => "LoadString"
  | loadBoolean _ => "LoadBoolean"
  | loadUndefined => "LoadUndefined"
  | loadNull => "LoadNull"
  | loadRegExp .. => "LoadRegExp"
  | loadBuiltin _ => "LoadBuiltin"
  | createObject _ => "CreateObject"
  | createArray _ => "CreateArray"
  | getProperty _ => "GetProperty"
  | setProperty _ => "SetProperty"
  | deleteProperty _ => "DeleteProperty"
  | getElement _ => "GetElement"
  | setElement _ => "SetElement"
  | getComputedProperty => "GetComputedProperty"
  | setComputedProperty => "SetComputedProperty"
  | callFunction .. => "CallFunction"
  | callMethod .. => "CallMethod"
  | construct .. => "Construct"
  | binaryOperation _ => "BinaryOperation"
  | unaryOperation _ => "UnaryOperation"
  | compare _ => "Compare"
  | reassign => "Reassign"
  | beginPlainFunction _ => "BeginPlainFunction"
  | endPlainFunction => "EndPlainFunction"
  | returnValue _ => "Return"
  | beginIf => "BeginIf"
  | beginElse => "BeginElse"
  | endIf => "EndIf"
  | beginRepeatLoop _ => "BeginRepeatLoop"
  | endRepeatLoop => "EndRepeatLoop"
  | loopBreak => "LoopBreak"
  | loopContinue => "LoopContinue"
  | beginTry => "BeginTry"
  | beginCatch => "BeginCatch"
  | endTryCatch => "EndTryCatch"
  | throwException => "ThrowException"
  | createWasmGlobal .. => "CreateWasmGlobal"
  | createWasmMemory .. => "CreateWasmMemory"
  | createWasmTable .. => "CreateWasmTable"
  | beginWasmModule => "BeginWasmModule"
  | endWasmModule => "EndWasmModule"
  | instantiateWasm _ => "InstantiateWasm"
  | getWasmExport _ => "GetWasmExport"
  | getWasmMemory _ => "GetWasmMemory"
  | writeWasmMemory .. => "WriteWasmMemory"
  | getWasmGlobal _ => "GetWasmGlobal"
  | wasmDefineGlobal .. => "WasmDefineGlobal"
  | wasmImportGlobal => "WasmImportGlobal"
  | wasmDefineTable .. => "WasmDefineTable"
  | wasmImportTable => "WasmImportTable"
  | wasmDefineMemory .. => "WasmDefineMemory"
  | wasmImportMemory => "WasmImportMemory"
  | wasmImportFunction _ => "WasmImportFunction"
  | beginWasmFunction _ => "BeginWasmFunction"
  | endWasmFunction _ => "EndWasmFunction"
  | wasmConst _ => "WasmConst"
  | wasmIntBinary .. => "WasmIntBinary"
  | wasmIntUnary .. => "WasmIntUnary"
  | wasmIntEqz _ => "WasmIntEqz"
  | wasmIntCompare .. => "WasmIntCompare"
  | wasmFloatBinary .. => "WasmFloatBinary"
  | wasmFloatUnary .. => "WasmFloatUnary"
  | wasmFloatCompare .. => "WasmFloatCompare"
  | wasmLoadGlobal => "WasmLoadGlobal"
  | wasmStoreGlobal => "WasmStoreGlobal"
  | wasmTableGet => "WasmTableGet"
  | wasmTableSet => "WasmTableSet"
  | wasmMemoryLoad .. => "WasmMemoryLoad"
  | wasmMemoryStore .. => "WasmMemoryStore"
  | wasmCallFunction _ => "WasmCallFunction"
  | wasmReassign => "WasmReassign"
  | wasmReturn _ => "WasmReturn"
  | wasmBeginBlock => "WasmBeginBlock"
  | wasmEndBlock => "WasmEndBlock"
  | wasmBeginLoop => "WasmBeginLoop"
  | wasmEndLoop => "WasmEndLoop"
  | wasmBeginIf => "WasmBeginIf"
  | wasmBeginElse => "WasmBeginElse"
  | wasmEndIf => "WasmEndIf"
  | wasmBranch => "WasmBranch"
  | wasmBranchIf => "WasmBranchIf"
  | wasmUnreachable => "WasmUnreachable"

/-- A text between single quotes. -/
def ticked (s : String) : String := "'" ++ s ++ "'"

/-- Minimum and maximum of a memory or table. -/
def limitsText (minimum : UInt32) (maximum : Option UInt32) : String :=
  "[" ++ natText minimum.toNat ++ ", " ++ maximumText maximum ++ "]"

/-- An operator with its width in front. -/
def widthText {α : Type} [Enumeration α] (width : Width) (op : α) : String :=
  Enumeration.name width ++ " " ++ Enumeration.name op

/-- The words after the name in the textual form. -/
def payloadWords : Operation → List String
  | loadInteger v | loadBigInt v => [ticked (intText v.toInt)]
  | loadFloat v => [ticked v.plainText]
  | loadString s => [quoted s]
  | loadBoolean b => [ticked (boolText b)]
  | loadRegExp pattern flags => [ticked ("/" ++ pattern ++ "/" ++ flags)]
  | loadBuiltin s => [ticked s]
  | createObject names => [bracketed names]
  | getProperty s | setProperty s | deleteProperty s => [ticked s]
  | getElement i | setElement i => [ticked (intText i.toInt)]
  | callFunction _ true | construct _ true => ["(guarded)"]
  | callMethod method _ guarded => ticked method :: if guarded then ["(guarded)"] else []
  | binaryOperation op => [ticked op.token]
  | unaryOperation op => [ticked op.token]
  | compare op => [ticked op.token]
  | beginRepeatLoop n => [ticked (natText n.toNat)]
  | createWasmGlobal v m | wasmDefineGlobal v m => v.text :: if m then ["mutable"] else []
  | createWasmMemory least most shared =>
    limitsText least most :: if shared then ["shared"] else []
  | createWasmTable t least most | wasmDefineTable t least most => [t.text, limitsText least most]
  | wasmDefineMemory least most => [limitsText least most]
  | getWasmExport s => [ticked s]
  | getWasmMemory i => [ticked (natText i.toNat)]
  | writeWasmMemory offset bytes =>
    ["+" ++ natText offset.toNat, bracketed (bytes.map fun b => natText b.toNat)]
  | getWasmGlobal s => [ticked s]
  | wasmImportFunction s | beginWasmFunction s | endWasmFunction s
  | wasmCallFunction s => [s.text]
  | wasmConst v => [v.text]
  | wasmIntBinary w op => [widthText w op]
  | wasmIntUnary w op => [widthText w op]
  | wasmIntEqz w => [Enumeration.name w]
  | wasmIntCompare w op => [widthText w op]
  | wasmFloatBinary w op => [widthText w op]
  | wasmFloatUnary w op => [widthText w op]
  | wasmFloatCompare w op => [widthText w op]
  | wasmMemoryLoad t offset | wasmMemoryStore t offset =>
    [t.text, "+" ++ natText offset.toNat]
  | _ => []

/-- The textual form: the name and the payload. -/
def text (op : Operation) : String := joined " " (op.name :: op.payloadWords)

/-- The operator that the operation applies, as scripts write it. -/
def token? : Operation → Option String
  | binaryOperation op => some op.token
  | unaryOperation op => some op.token
  | compare op => some op.token
  | _ => none

end Operation

end EngineFuzz
