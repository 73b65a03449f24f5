import EngineFuzz.Wasm.Module

/-!
# The types of code

The rules by which WebAssembly accepts a module before it is run.  Function bodies are checked in
one pass that keeps, for every open block, the types of the operands that the block has pushed.
After an instruction that never continues, operands may be assumed as they are needed.

* `BodyTyping.operandTypes?`: what an instruction takes from the operand stack and puts on it.
* `BodyTyping.step?`: the effect of an instruction on the open blocks.
* `FunctionBody.isTyped`: whether a body has a signature.
* `WasmModule.isValid`: whether a module is accepted.
-/

namespace EngineFuzz

/-- The type of the value that the literal pushes. -/
def WasmLiteral.pushedType : WasmLiteral → WasmType
  | nullRef t => t.asReference
  | value => value.type

/-- The entities that function bodies refer to, by their indices. -/
structure EntityTypes where
  functions : List FunctionSignature
  /-- The types of the elements of each table. -/
  tables : List WasmType
  memoryCount : Nat
  globals : List GlobalType
deriving DecidableEq, Repr, Inhabited

/-- What a function body may refer to. -/
structure BodyTyping where
  entities : EntityTypes
  /-- The types of the locals, the parameters first. -/
  locals : List WasmType
  results : List WasmType
deriving DecidableEq, Repr, Inhabited

/-- What opened a block of code. -/
inductive BlockOpener where
  | body | block | loop | ifThen | elseThen
deriving DecidableEq, Repr, Inhabited

/-- An open block of code that is being checked. -/
structure TypedBlock where
  opener : BlockOpener
  /-- The types of the operands that the block has pushed, the topmost first. -/
  operands : List WasmType
  /-- Whether control cannot get here, so that further operands may be assumed. -/
  isUnreachable : Bool
deriving DecidableEq, Repr, Inhabited

namespace TypedBlock

/-- A block at its beginning has produced nothing. -/
def start (opener : BlockOpener) : TypedBlock := ⟨opener, [], false⟩

/-- Takes operands of these types, the topmost first. -/
def pop? (b : TypedBlock) : List WasmType → Option TypedBlock
  | [] => some b
  | t :: types =>
    match b.operands with
    | u :: operands => if t = u then pop? { b with operands } types else none
    | [] => if b.isUnreachable then b.pop? types else none

/-- Pushes operands of these types, the topmost last. -/
def push (b : TypedBlock) (types : List WasmType) : TypedBlock :=
  { b with operands := types.reverse ++ b.operands }

/-- The block after an instruction that never continues. -/
def diverged (b : TypedBlock) : TypedBlock := { b with operands := [], isUnreachable := true }

end TypedBlock

namespace BodyTyping

/-- Offsets are words of 32 bits, and only numbers are kept in memories. -/
def allowsAccess (c : BodyTyping) (type : WasmType) (offset : UInt64) (memory : Nat) : Bool :=
  decide (memory < c.entities.memoryCount) && type.isNumeric && decide (offset < 0x100000000)

/-- The types of the operands that an instruction takes, the topmost first, and of those that it
leaves, the topmost last.  Instructions that direct control have no such types. -/
def operandTypes? (c : BodyTyping) : Instr → Option (List WasmType × List WasmType)
  | .const value => some ([], [value.pushedType])
  | .intBinary width _ => some ([width.intType, width.intType], [width.intType])
  | .intUnary width _ => some ([width.intType], [width.intType])
  | .intEqz width => some ([width.intType], [.i32])
  | .intCompare width _ => some ([width.intType, width.intType], [.i32])
  | .floatBinary width _ => some ([width.floatType, width.floatType], [width.floatType])
  | .floatUnary width _ => some ([width.floatType], [width.floatType])
  | .floatCompare width _ => some ([width.floatType, width.floatType], [.i32])
  | .localGet index => do return ([], [← c.locals[index]?])
  | .localSet index => do return ([← c.locals[index]?], [])
  | .globalGet index => do return ([], [(← c.entities.globals[index]?).type])
  | .globalSet index => do
    let g ← c.entities.globals[index]?
    if g.isMutable then some ([g.type], []) else none
  | .tableGet index => do return ([.i32], [← c.entities.tables[index]?])
  | .tableSet index => do return ([← c.entities.tables[index]?, .i32], [])
  | .load type offset memory =>
    if c.allowsAccess type offset memory then some ([.i32], [type]) else none
  | .store type offset memory =>
    if c.allowsAccess type offset memory then some ([type, .i32], []) else none
  | .call index => do
    let signature ← c.entities.functions[index]?
    return (signature.params.reverse, signature.results)
  | _ => none

/-- The types of the operands that a branch takes along, the topmost last.  Only the label of the
whole body has any. -/
def labelTypes? (c : BodyTyping) (blocks : List TypedBlock) (depth : Nat) :
    Option (List WasmType) := do
  match (← blocks[depth]?).opener with
  | .body => return c.results
  | _ => return []

/-- The open blocks, the innermost first, after an instruction. -/
def step? (c : BodyTyping) (blocks : List TypedBlock) (i : Instr) : Option (List TypedBlock) :=
  match blocks with
  | [] => none
  | top :: outer =>
    match i with
    | .block => some (.start .block :: blocks)
    | .loop => some (.start .loop :: blocks)
    | .ifThen => do return .start .ifThen :: (← top.pop? [.i32]) :: outer
    | .elseThen =>
      if top.opener = .ifThen ∧ top.operands = [] then some (.start .elseThen :: outer) else none
    | .blockEnd => do
      let types := if top.opener = .body then c.results else []
      if (← top.pop? types.reverse).operands = [] then some outer else none
    | .br depth => do
      let _ ← top.pop? (← c.labelTypes? blocks depth).reverse
      return top.diverged :: outer
    | .brIf depth => do
      let types ← c.labelTypes? blocks depth
      return (← (← top.pop? [.i32]).pop? types.reverse).push types :: outer
    | .ret => do
      let _ ← top.pop? c.results.reverse
      return top.diverged :: outer
    | .unreachable => some (top.diverged :: outer)
    | i => do
      let (operands, results) ← c.operandTypes? i
      return (← top.pop? operands).push results :: outer

/-- Whether all blocks of the code are closed by its last instruction, and not before. -/
def accepts (c : BodyTyping) (code : List Instr) : Bool :=
  code.foldlM c.step? [.start .body] == some []

end BodyTyping

namespace FunctionBody

/-- The most locals that a body may declare. -/
def maxLocals : Nat := 50000

/-- Whether the body has the signature. -/
def isTyped (entities : EntityTypes) (signature : FunctionSignature) (b : FunctionBody) : Bool :=
  decide (b.locals.length ≤ maxLocals) &&
    BodyTyping.accepts ⟨entities, signature.params ++ b.locals, signature.results⟩ b.code

end FunctionBody

/-- The most parameters, and the most results, of a function. -/
def FunctionSignature.maxLength : Nat := 1000

/-- Neither parameters nor results are too many. -/
def FunctionSignature.isValid (s : FunctionSignature) : Bool :=
  decide (s.params.length ≤ maxLength ∧ s.results.length ≤ maxLength)

/-- Whether a minimum is not above the maximum, if there is one. -/
def limitsAgree (minimum : UInt32) (maximum : Option UInt32) : Bool :=
  maximum.all fun n => decide (minimum ≤ n)

namespace TableType

/-- The most elements that a table starts with. -/
def maxSize : UInt32 := 10000000

/-- The limits agree, and the table does not start too large. -/
def isValid (t : TableType) : Bool :=
  limitsAgree t.minimum t.maximum && decide (t.minimum ≤ maxSize)

end TableType

namespace MemoryType

/-- The pages of the 32-bit address space. -/
def maxPages : UInt32 := 65536

/-- A memory that is shared has a maximum. -/
def isValid (m : MemoryType) : Bool :=
  limitsAgree m.minimum m.maximum && decide (m.minimum ≤ maxPages) &&
    (m.maximum.all fun n => decide (n ≤ maxPages)) && (!m.shared || m.maximum.isSome)

end MemoryType

namespace WasmModule

/-- The most tables, and the most memories, of a module. -/
def maxStores : Nat := 100

/-- The signatures of imported functions. -/
def importedFunctions (m : WasmModule) : List FunctionSignature :=
  m.importTypes.filterMap fun
    | .function signature => some signature
    | _ => none

/-- The imported tables. -/
def importedTables (m : WasmModule) : List TableType :=
  m.importTypes.filterMap fun
    | .table element least most => some ⟨element, least, most⟩
    | _ => none

/-- The imported memories. -/
def importedMemories (m : WasmModule) : List MemoryType :=
  m.importTypes.filterMap fun
    | .memory least most shared => some ⟨least, most, shared⟩
    | _ => none

/-- The imported globals. -/
def importedGlobals (m : WasmModule) : List GlobalType :=
  m.importTypes.filterMap fun
    | .global type isMutable => some ⟨type, isMutable⟩
    | _ => none

/-- The signatures of the defined functions, if all their numbers are those of signatures. -/
def definedSignatures? (m : WasmModule) : Option (List FunctionSignature) :=
  m.functions.mapM fun number => m.types[number]?

/-- Tables by their indices. -/
def allTables (m : WasmModule) : List TableType := m.importedTables ++ m.tables

/-- Memories by their indices. -/
def allMemories (m : WasmModule) : List MemoryType := m.importedMemories ++ m.memories

/-- The entities of the module, given the signatures of its defined functions. -/
def entityTypes (m : WasmModule) (defined : List FunctionSignature) : EntityTypes where
  functions := m.importedFunctions ++ defined
  tables := m.allTables.map fun t => t.element.asReference
  memoryCount := m.allMemories.length
  globals := m.importedGlobals ++ m.globals.map (·.1)

/-- How many entities there are in a category. -/
def entityCount (entities : EntityTypes) : EntityCategory → Nat
  | .function => entities.functions.length
  | .global => entities.globals.length
  | .table => entities.tables.length
  | .memory => entities.memoryCount

/-- Whether the module is accepted. -/
def isValid (m : WasmModule) : Bool :=
  match m.definedSignatures? with
  | none => false
  | some defined =>
    let entities := m.entityTypes defined
    (m.imports.all fun i => (m.importedEntity? i).isSome) &&
      (m.types ++ m.importedFunctions).all (·.isValid) &&
      m.allTables.all (·.isValid) && decide (m.allTables.length ≤ maxStores) &&
      m.allMemories.all (·.isValid) && decide (m.allMemories.length ≤ maxStores) &&
      (m.globals.all fun (g, value) => value.pushedType == g.type) &&
      (m.exports.all fun e => decide (e.index < entityCount entities e.category)) &&
      decide ((m.exports.map (·.name)).Nodup) &&
      defined.length == m.bodies.length &&
      ((defined.zip m.bodies).all fun (signature, body) => body.isTyped entities signature)

end WasmModule

end EngineFuzz
