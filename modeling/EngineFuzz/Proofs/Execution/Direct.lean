import Mathlib
import EngineFuzz.Execution.Data
import EngineFuzz.Proofs.Validation.Operands
import EngineFuzz.Proofs.Validation.Typer
import EngineFuzz.Wasm.Module

/-!
# What function bodies mean

The meaning of the functions of a module as the program gives them, without regard to their code.
Variables have values; branches go to the labels that they name; globals, tables and memories are
those that variables stand for.  Integers are computed on words as the reference tells.  A module is
given by the instructions in its body, and calls functions of a host.

* `Direct.functions`, `Direct.entitiesOf`: what the variables of a module body stand for.
* `FunctionCode.target?`: where a branch to a label continues.
* `Direct.applyData`: operations on data.
* `Direct.step`, `Direct.run`: one instruction, and a number of them.
-/

namespace EngineFuzz

/-- Where a payload tells the type of null references or of the elements of a table, it is a type of
references. -/
def Operation.namesReferences : Operation → Bool
  | wasmConst (.nullRef type) | createWasmGlobal (.nullRef type) _
  | wasmDefineGlobal (.nullRef type) _ => type.isReference
  | createWasmTable element .. | wasmDefineTable element .. => element.isReference
  | _ => true

/-- A function as the program gives it. -/
structure FunctionCode where
  params : List Variable
  body : List Instruction
  /-- The variables whose values the function yields at its end. -/
  results : List Variable

/-! ### Blocks -/

namespace Direct

/-- What follows the block that the instructions are in, where `depth` blocks inside are open.  An
instruction that both ends and begins a block begins the second part of it. -/
def afterBlock (depth : Nat) : List Instruction → List Instruction
  | [] => []
  | i :: rest =>
    match i.operation.isBlockEnd, i.operation.isBlockStart, depth with
    | false, true, _ => afterBlock (depth + 1) rest
    | true, false, 0 => rest
    | true, false, depth + 1 => afterBlock depth rest
    | _, _, _ => afterBlock depth rest

/-- The second part of the block that the instructions are in, where `depth` blocks inside are
open; nothing if it has only one part. -/
def secondPart? (depth : Nat) : List Instruction → Option (List Instruction)
  | [] => none
  | i :: rest =>
    match i.operation.isBlockEnd, i.operation.isBlockStart, depth with
    | false, true, _ => secondPart? (depth + 1) rest
    | true, true, 0 => some rest
    | true, false, 0 => none
    | true, false, depth + 1 => secondPart? depth rest
    | _, _, _ => secondPart? depth rest

/-- The instruction that has a label, and those behind it. -/
def findLabel? (label : Variable) : List Instruction → Option (Instruction × List Instruction)
  | [] => none
  | i :: rest => if i.innerOutputs.contains label then some (i, rest) else findLabel? label rest

end Direct

/-- Where a branch to a label continues: at the beginning of a loop, or behind another block. -/
def FunctionCode.target? (f : FunctionCode) (label : Variable) : Option (List Instruction) :=
  (Direct.findLabel? label f.body).map fun (i, rest) =>
    if i.operation = .wasmBeginLoop then rest else Direct.afterBlock 0 rest

namespace Direct

/-! ### Entities -/

/-- What a function of a module is. -/
inductive Callee where
  /-- A function of the host, which it imports under a name. -/
  | host (name : String) (signature : FunctionSignature)
  | code (function : FunctionCode)

/-- The functions that a module body imports, each with its variable. -/
def importedFunctions (body : List Instruction) : List (Variable × Callee) :=
  (body.filter (·.operation.isImport)).zipIdx.filterMap fun (i, index) =>
    match i.operation, i.output? with
    | .wasmImportFunction signature, some v =>
      some (v, .host (WasmModule.importName index) signature)
    | _, _ => none

/-- The functions that a module body defines, each with its variable.  If the instructions start
inside a function, `opened` is its first instruction with those behind it, the latest first. -/
def definedFunctions (opened : Option (Instruction × List Instruction)) :
    List Instruction → List (Variable × Callee)
  | [] => []
  | i :: rest =>
    match opened, i.operation with
    | none, .beginWasmFunction _ => definedFunctions (some (i, [])) rest
    | none, _ => definedFunctions none rest
    | some (first, inside), .endWasmFunction _ =>
      i.outputs.map (fun v => (v, .code ⟨first.innerOutputs, inside.reverse, i.inputs⟩)) ++
        definedFunctions none rest
    | some (first, inside), _ => definedFunctions (some (first, i :: inside)) rest

/-- The functions of a module body by their indices. -/
def functions (body : List Instruction) : List (Variable × Callee) :=
  importedFunctions body ++ definedFunctions none body

/-- The function that a variable stands for. -/
def callee? (body : List Instruction) (v : Variable) : Option Callee :=
  ((functions body).find? fun f => f.1 == v).map (·.2)

/-- The index space of the entity that an operation declares. -/
def category? : Operation → Option EntityCategory
  | .wasmDefineGlobal .. | .wasmImportGlobal => some .global
  | .wasmDefineTable .. | .wasmImportTable => some .table
  | .wasmDefineMemory .. | .wasmImportMemory => some .memory
  | .wasmImportFunction _ | .endWasmFunction _ => some .function
  | _ => none

/-- The variables of the entities of a category by their indices: imports come first. -/
def entitiesOf (body : List Instruction) (c : EntityCategory) : List Variable :=
  let declaring := body.filter fun i => category? i.operation == some c
  (declaring.filter fun i => i.operation.isImport).flatMap (·.outputs) ++
    (declaring.filter fun i => i.operation.isDefinition).flatMap (·.outputs)

/-- The place of the entity of a category that a variable stands for. -/
def place? (body : List Instruction) (c : EntityCategory) (v : Variable) : Option Nat :=
  (entitiesOf body c).findIdx? fun u => u == v

end Direct

/-! ### Data -/

namespace MachineValue

/-- The word of an integer of a width, with zeros above. -/
def toWord? : Width → MachineValue → Option UInt64
  | .bits32, i32 n => some n.toUInt32.toUInt64
  | .bits64, i64 n => some n.toUInt64
  | _, _ => none

/-- The integer of a width in the low bits of a word. -/
def ofWord : Width → UInt64 → MachineValue
  | .bits32, x => i32 x.toUInt32.toInt32
  | .bits64, x => i64 x.toInt64

/-- A binary instruction on the words of two integers. -/
def wordBinary (width : Width) (op : IntBinaryOp) (x y : MachineValue) :
    Except Fault MachineValue := do
  let x ← orStuck (x.toWord? width)
  let y ← orStuck (y.toWord? width)
  return ofWord width (← (width.intBinary op x y).mapError Fault.trap)

/-- A unary instruction on the word of an integer. -/
def wordUnary (width : Width) (op : IntUnaryOp) (x : MachineValue) : Except Fault MachineValue := do
  return ofWord width (width.intUnary op (← orStuck (x.toWord? width)))

/-- Whether the word of an integer is zero. -/
def wordEqz (width : Width) (x : MachineValue) : Except Fault MachineValue := do
  return ofBool (width.intEqz (← orStuck (x.toWord? width)))

/-- A comparison of the words of two integers. -/
def wordCompare (width : Width) (op : IntCompareOp) (x y : MachineValue) :
    Except Fault MachineValue := do
  let x ← orStuck (x.toWord? width)
  let y ← orStuck (y.toWord? width)
  return ofBool (width.intCompare op x y)

end MachineValue

namespace Store

open MachineValue (orStuck)

/-- A reference in a table. -/
def referenceAt (store : Store) (index : Option Nat) (place : Int32) :
    Except Fault MachineValue := do
  let table ← orStuck (index.bind (store.tables[·]?))
  match table.get? place.toUInt32.toNat with
  | some value => return value
  | none => throw (.trap .tableOutOfBounds)

/-- A number in a memory. -/
def numberAt (store : Store) (index : Option Nat) (type : WasmType) (address : Nat) :
    Except Fault MachineValue := do
  let memory ← orStuck (index.bind (store.memories[·]?))
  match memory.read? address type.byteWidth with
  | some bytes => return .ofBytes type bytes
  | none => throw (.trap .memoryOutOfBounds)

/-- The store behind the assignment of a value to a global. -/
def setGlobal (store : Store) (index : Option Nat) (value : MachineValue) :
    Except Fault Store := do
  let index ← orStuck index
  if index < store.globals.length then
    return { store with globals := store.globals.set index value }
  else throw .stuck

/-- The store behind the writing of a reference, which has to be of the type of the elements. -/
def setReference (store : Store) (index : Option Nat) (place : Int32) (type : WasmType)
    (target : Option Nat) : Except Fault Store := do
  let index ← orStuck index
  let table ← orStuck store.tables[index]?
  if type = table.element then
    match table.set? place.toUInt32.toNat target with
    | some table => return { store with tables := store.tables.set index table }
    | none => throw (.trap .tableOutOfBounds)
  else throw .stuck

/-- The store behind the writing of a number of a type. -/
def setNumber (store : Store) (index : Option Nat) (type : WasmType) (address : Nat)
    (value : MachineValue) : Except Fault Store := do
  let index ← orStuck index
  let memory ← orStuck store.memories[index]?
  if value.type = type then
    match memory.write? address value.toBytes with
    | some memory => return { store with memories := store.memories.set index memory }
    | none => throw (.trap .memoryOutOfBounds)
  else throw .stuck

end Store

namespace Direct

open MachineValue in
/-- What an operation on data gives, and the store behind it.  `place?` is the place of the entity
that the operation works on. -/
def applyData (place? : EntityCategory → Option Nat) (store : Store) (op : Operation)
    (args : List MachineValue) : Except Fault (List MachineValue × Store) :=
  let result (value : MachineValue) : List MachineValue × Store := ([value], store)
  match op, args with
  | .wasmConst value, [] => .ok (result (.ofLiteral value))
  | .wasmIntBinary width op, [x, y] => (wordBinary width op x y).map result
  | .wasmIntUnary width op, [x] => (wordUnary width op x).map result
  | .wasmIntEqz width, [x] => (wordEqz width x).map result
  | .wasmIntCompare width op, [x, y] => (wordCompare width op x y).map result
  | .wasmFloatBinary width op, [x, y] => (floatBinary width op x y).map result
  | .wasmFloatUnary width op, [x] => (floatUnary width op x).map result
  | .wasmFloatCompare width op, [x, y] => (floatCompare width op x y).map result
  | .wasmLoadGlobal, [] => (orStuck ((place? .global).bind (store.globals[·]?))).map result
  | .wasmStoreGlobal, [value] => (store.setGlobal (place? .global) value).map ([], ·)
  | .wasmTableGet, [.i32 place] => (store.referenceAt (place? .table) place).map result
  | .wasmTableSet, [.i32 place, .reference type target] =>
    (store.setReference (place? .table) place type target).map ([], ·)
  | .wasmMemoryLoad type offset, [.i32 address] =>
    (store.numberAt (place? .memory) type (address.toUInt32.toNat + offset.toNat)).map result
  | .wasmMemoryStore type offset, [.i32 address, value] =>
    (store.setNumber (place? .memory) type (address.toUInt32.toNat + offset.toNat) value).map
      ([], ·)
  | _, _ => .error .stuck

/-! ### Functions -/

/-- The values that variables have. -/
def Values : Type := Variable → Option MachineValue

namespace Values

/-- No variable has a value. -/
def empty : Values := fun _ => none

/-- Gives a variable a value. -/
def set (values : Values) (v : Variable) (x : MachineValue) : Values :=
  fun w => if w = v then some x else values w

/-- Gives variables values as long as there are both. -/
def setAll (values : Values) (vs : List Variable) (xs : List MachineValue) : Values :=
  (vs.zip xs).foldl (fun values (v, x) => values.set v x) values

/-- The values of several variables, if each has one. -/
def getAll? (values : Values) (vs : List Variable) : Option (List MachineValue) :=
  vs.mapM fun v => values v

end Values

/-- A function that has been called and has not returned. -/
structure Frame where
  function : FunctionCode
  values : Values
  /-- The instructions that are left. -/
  rest : List Instruction

/-- The functions that are active, and what they share. -/
structure State where
  store : Store
  active : Frame
  /-- The callers of the active function, the latest first, each with the variables for the results
  of its call. -/
  callers : List (Frame × List Variable)

/-- What a step leads to. -/
inductive Progress where
  | running (s : State)
  | returned (values : List MachineValue) (store : Store)
  | trapped (kind : TrapKind) (store : Store)
  /-- The values or the store do not fit the instruction. -/
  | stuck

end Direct

/-- The frame of a function that is called with some arguments. -/
def FunctionCode.enter (f : FunctionCode) (args : List MachineValue) : Direct.Frame :=
  ⟨f, Direct.Values.empty.setAll f.params args, f.body⟩

namespace Direct

namespace State

/-- The invocation of a function. -/
def start (f : FunctionCode) (args : List MachineValue) (store : Store) : State :=
  ⟨store, f.enter args, []⟩

/-- Goes to other instructions of the active function. -/
def goto (s : State) (rest : List Instruction) : State := { s with active.rest := rest }

/-- Gives variables of the active function values. -/
def bind (s : State) (vs : List Variable) (xs : List MachineValue) : State :=
  { s with active.values := s.active.values.setAll vs xs }

/-- Ends the active function. -/
def leave (s : State) (results : List MachineValue) : Progress :=
  match s.callers with
  | [] => .returned results s.store
  | (caller, outputs) :: callers =>
    if results.length = outputs.length then
      .running ({ s with active := caller, callers }.bind outputs results)
    else .stuck

/-- Goes where a branch to a label continues. -/
def branch (s : State) (label : Option Variable) : Progress :=
  match label.bind s.active.function.target? with
  | some rest => .running (s.goto rest)
  | none => .stuck

/-- Calls the function that a variable stands for. -/
def call (host : Host) (body : List Instruction) (s : State) (callee : Option Variable)
    (outputs : List Variable) (args : List MachineValue) : Progress :=
  match callee.bind (callee? body) with
  | none => .stuck
  | some (.host name signature) =>
    match host.call ⟨name, args⟩ signature s.store with
    | (.ok results, store) => .running ({ s with store }.bind outputs results)
    | (.error (.trap kind), store) => .trapped kind store
    | (.error .stuck, _) => .stuck
  | some (.code f) =>
    if args.length = f.params.length then
      .running ⟨s.store, f.enter args, (s.active, outputs) :: s.callers⟩
    else .stuck

/-- The effect of an instruction that control has gone past, given the values that it reads. -/
def execute (host : Host) (body : List Instruction) (s : State) (i : Instruction)
    (args : List MachineValue) : Progress :=
  match i.operation, args with
  | .wasmReturn _, args => s.leave args
  | .wasmBeginBlock, _ | .wasmBeginLoop, _ | .wasmEndBlock, _ | .wasmEndLoop, _
  | .wasmEndIf, _ => .running s
  | .wasmBeginIf, [.i32 condition] =>
    if condition ≠ 0 then .running s
    else .running (s.goto ((secondPart? 0 s.active.rest).getD (afterBlock 0 s.active.rest)))
  -- control gets here from the first part
  | .wasmBeginElse, _ => .running (s.goto (afterBlock 0 s.active.rest))
  | .wasmBranch, _ => s.branch i.inputs.head?
  | .wasmBranchIf, [.i32 condition] =>
    if condition ≠ 0 then s.branch i.inputs.head? else .running s
  | .wasmUnreachable, _ => .trapped .unreachable s.store
  | .wasmReassign, [value] => .running (s.bind (i.inputs.take 1) [value])
  | .wasmCallFunction _, args => s.call host body i.inputs.head? i.outputs args
  | .wasmBeginIf, _ | .wasmBranchIf, _ | .wasmReassign, _ => .stuck
  | op, args =>
    match applyData (fun c => i.inputs.head?.bind (place? body c)) s.store op args with
    | .ok (results, store) => .running ({ s with store }.bind i.outputs results)
    | .error (.trap kind) => .trapped kind s.store
    | .error .stuck => .stuck

end State

/-- One instruction.  Behind the last one the function yields its results. -/
def step (host : Host) (body : List Instruction) (s : State) : Progress :=
  match s.active.rest with
  | [] =>
    match s.active.values.getAll? s.active.function.results with
    | some results => s.leave results
    | none => .stuck
  | i :: rest =>
    match s.active.values.getAll? i.values with
    | some args => (s.goto rest).execute host body i args
    | none => .stuck

/-- At most so many steps. -/
def run (host : Host) (body : List Instruction) : Nat → State → Progress
  | 0, s => .running s
  | steps + 1, s =>
    match step host body s with
    | .running s => run host body steps s
    | other => other

end Direct

end EngineFuzz
