import EngineFuzz.Analysis.ModuleLayout
import EngineFuzz.Program.Environment
import Std.Data.TreeMap

/-!
# Static types

`Typer` follows a list of instructions and records the type of each variable and the layout of the
module being defined.

* `Typer.outputTypes`: the types that the outputs of an operation would get.
* `Typer.apply`: the state after an instruction.
-/

namespace EngineFuzz

/-- The static types at a position of a program. -/
structure Typer where
  environment : Environment
  types : Std.TreeMap Variable StaticType
  /-- The modules being defined, the innermost first. -/
  modules : List ModuleLayout

/-- The type of the result of a binary operator. -/
def BinaryOperator.resultType (op : BinaryOperator) (lhs rhs : StaticType) : StaticType :=
  match op with
  | logicAnd | logicOr => .anything
  | _ =>
    if lhs = .bigInt ∧ rhs = .bigInt then .bigInt
    else if lhs.isNumber && rhs.isNumber then .float
    else .anything

/-- The type of the result of a unary operator. -/
def UnaryOperator.resultType (op : UnaryOperator) (input : StaticType) : StaticType :=
  match op with
  | logicalNot => .boolean
  | minus | bitwiseNot =>
    if input = .bigInt then .bigInt else if input.isNumber then .float else .anything
  | plus => if input.isNumber then .float else .anything

namespace StaticType

/-- The width of an integer value of a function body. -/
def intWidth? (t : StaticType) : Option Width := t.wasmType?.bind Width.ofInt?

/-- The width of a floating-point value of a function body. -/
def floatWidth? (t : StaticType) : Option Width := t.wasmType?.bind Width.ofFloat?

end StaticType

namespace Typer

/-- At the start of a program no variable has a type. -/
def start (environment : Environment) : Typer := ⟨environment, ∅, []⟩

/-- Forgets all variables and modules. -/
def reset (t : Typer) : Typer := start t.environment

/-- The type of a variable; one that is not known may hold anything. -/
def typeOf (t : Typer) (v : Variable) : StaticType := t.types.getD v .anything

/-- Whether the variable has been defined. -/
def knows (t : Typer) (v : Variable) : Bool := t.types.contains v

/-- The layout of the module being defined. -/
def currentModule? (t : Typer) : Option ModuleLayout := t.modules.head?

/-- The entity that an import makes of its source; a source of another category gives a default. -/
def importedEntity (t : Typer) (source : Option Variable) (default : EntityType) : StaticType :=
  match source.map t.typeOf with
  | some (.wasmObject entity) =>
    if entity.category = default.category then .wasmEntity entity else .wasmEntity default
  | _ => .wasmEntity default

/-- The type of each output of an operation whose outputs are all of one type. -/
def resultType (t : Typer) (op : Operation) (inputs : List Variable) : StaticType :=
  let inputType (index : Nat) : StaticType := (inputs[index]?.map t.typeOf).getD .anything
  match op with
  | .loadInteger _ => .integer
  | .loadBigInt _ => .bigInt
  | .loadFloat _ => .float
  | .loadString _ => .string
  | .loadBoolean _ => .boolean
  | .loadUndefined => .undefined
  | .loadNull => .null
  | .loadRegExp .. => .regExp
  | .loadBuiltin name => (t.environment.builtinType? name).getD .anything
  | .createObject _ => .object none
  | .createArray _ => .array
  | .deleteProperty _ | .compare _ => .boolean
  | .construct _ false => .object none
  | .binaryOperation op => op.resultType (inputType 0) (inputType 1)
  | .unaryOperation op => op.resultType (inputType 0)
  | .beginPlainFunction n => .function n
  | .createWasmGlobal value isMutable => .wasmObject (.global value.type isMutable)
  | .createWasmMemory least most shared => .wasmObject (.memory least most shared)
  | .createWasmTable element least most => .wasmObject (.table element least most)
  | .instantiateWasm _ =>
    match inputType 0 with
    | .wasmModule signature => .wasmExports signature
    | _ => .anything
  | .wasmDefineGlobal value isMutable => .wasmEntity (.global value.type isMutable)
  | .wasmDefineTable element least most => .wasmEntity (.table element least most)
  | .wasmDefineMemory least most => .wasmEntity (.memory least most false)
  | .wasmImportGlobal => t.importedEntity inputs.head? (.global .i32 false)
  | .wasmImportTable => t.importedEntity inputs.head? (.table .funcRef 0 none)
  | .wasmImportMemory => t.importedEntity inputs.head? (.memory 0 none false)
  | .wasmImportFunction signature | .endWasmFunction signature => .wasmEntity (.function signature)
  | .wasmConst value => .wasm value.type
  | .wasmIntBinary width _ | .wasmIntUnary width _ => .wasm width.intType
  | .wasmIntEqz _ | .wasmIntCompare .. | .wasmFloatCompare .. => .wasm .i32
  | .wasmFloatBinary width _ | .wasmFloatUnary width _ => .wasm width.floatType
  | .wasmLoadGlobal =>
    match inputType 0 with
    | .wasmEntity (.global type _) => .wasm type
    | _ => .anything
  | .wasmTableGet =>
    match inputType 0 with
    | .wasmEntity (.table element _ _) => .wasm element
    | _ => .anything
  | .wasmMemoryLoad type _ => .wasm type
  | _ => .anything

/-- The types that the outputs of an operation get with these inputs.  A module's signature is
known at its end only, so an empty one stands for it here. -/
def outputTypes (t : Typer) (op : Operation) (inputs : List Variable) : List StaticType :=
  match op with
  | .wasmCallFunction signature => signature.results.map .wasm
  | .endWasmModule => [.wasmModule .empty, .wasmExports .empty]
  | op => List.replicate op.numOutputs (t.resultType op inputs)

/-- The types of at most `limit` variables inside the block that an operation opens. -/
def innerOutputTypes (op : Operation) (limit : Nat) : List StaticType :=
  match op with
  | .beginPlainFunction n => List.replicate (min n.toNat limit) .anything
  | .beginRepeatLoop _ => [.integer]
  | .beginCatch => [.anything]
  | .beginWasmFunction signature => signature.params.map .wasm
  | .wasmBeginBlock | .wasmBeginLoop | .wasmBeginIf | .wasmBeginElse => [.label]
  | _ => []

/-- Records the type of a variable. -/
def record (t : Typer) (v : Variable) (type : StaticType) : Typer :=
  { t with types := t.types.insert v type }

/-- Records types as long as there are both variables and types. -/
def recordAll (t : Typer) (vs : List Variable) (types : List StaticType) : Typer :=
  (vs.zip types).foldl (fun t (v, type) => t.record v type) t

/-- Replaces the layout of the module being defined. -/
def mapModule (t : Typer) (f : ModuleLayout → ModuleLayout) : Typer :=
  match t.modules with
  | [] => t
  | layout :: outer => { t with modules := f layout :: outer }

/-- Adds the entity that an instruction declares to the module being defined. -/
def recordEntity (t : Typer) (i : Instruction) : Typer :=
  match i.output? with
  | none => t
  | some v =>
    match t.typeOf v with
    | .wasmEntity entity =>
      match i.operation, i.inputs.head? with
      | .wasmImportGlobal, some source | .wasmImportTable, some source
      | .wasmImportMemory, some source | .wasmImportFunction _, some source =>
        t.mapModule (·.addImport v entity source)
      | .wasmDefineGlobal .., _ | .wasmDefineTable .., _ | .wasmDefineMemory .., _
      | .endWasmFunction _, _ => t.mapModule (·.addDefinition v entity)
      | _, _ => t
    | _ => t

/-- The end of a module: its signature is now known. -/
def endModule (t : Typer) (outputs : List Variable) : Typer :=
  let signature := (t.modules.head?.map (·.signature)).getD .empty
  let closed := { t with modules := t.modules.tail }
  match outputs with
  | [module, exports] =>
    (closed.record module (.wasmModule signature)).record exports (.wasmExports signature)
  | _ => closed

/-- The state after an instruction. -/
def apply (t : Typer) (i : Instruction) : Typer :=
  match i.operation with
  | .endWasmModule => t.endModule i.outputs
  | op =>
    let withOutputs := t.recordAll i.outputs (t.outputTypes op i.inputs)
    let withInner :=
      withOutputs.recordAll i.innerOutputs (innerOutputTypes op i.innerOutputs.length)
    match op with
    | .beginWasmModule => { withInner with modules := .empty :: withInner.modules }
    | _ => withInner.recordEntity i

end Typer

end EngineFuzz
