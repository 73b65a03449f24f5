import EngineFuzz.Generation.Builder

/-!
# Statements and blocks

Instructions that generators append often, and blocks: each opens a block, runs a computation
inside and closes the block again.  A block hands on what the computation yields; the second part
of a block is given what the first part yields.
-/

namespace EngineFuzz.Build

/-! ### Script values and operations -/

/-- An integer as a fresh value. -/
def integer (n : Int) : Build Variable := value (.loadInteger (Int64.ofInt n)) []

/-- A BigInt as a fresh value. -/
def bigInt (n : Int) : Build Variable := value (.loadBigInt (Int64.ofInt n)) []

/-- A string as a fresh value. -/
def text (s : String) : Build Variable := value (.loadString s) []

/-- The builtin with a name. -/
def builtin (name : String) : Build Variable := value (.loadBuiltin name) []

/-- An object with these properties. -/
def object (properties : List (String × Variable)) : Build Variable :=
  value (.createObject (properties.map (·.1))) (properties.map (·.2))

/-- An array of these elements. -/
def array (elements : List Variable) : Build Variable :=
  value (.createArray elements.length.toUInt64) elements

/-- The property with a name. -/
def property (object : Variable) (name : String) : Build Variable :=
  value (.getProperty name) [object]

/-- Assigns to the property with a name. -/
def setProperty (object : Variable) (name : String) (v : Variable) : Build Unit :=
  perform (.setProperty name) [object, v]

/-- Calls a function; if `guarded`, an exception is caught. -/
def call (function : Variable) (args : List Variable) (guarded : Bool) : Build Variable :=
  value (.callFunction args.length.toUInt64 guarded) (function :: args)

/-- Calls a method; if `guarded`, an exception is caught. -/
def callMethod (object : Variable) (name : String) (args : List Variable) (guarded : Bool) :
    Build Variable :=
  value (.callMethod name args.length.toUInt64 guarded) (object :: args)

/-- Calls a constructor; if `guarded`, an exception is caught. -/
def construct (constructor : Variable) (args : List Variable) (guarded : Bool) :
    Build Variable :=
  value (.construct args.length.toUInt64 guarded) (constructor :: args)

/-- The result of a binary operator. -/
def binary (lhs rhs : Variable) (op : BinaryOperator) : Build Variable :=
  value (.binaryOperation op) [lhs, rhs]

/-- The result of a comparison. -/
def compare (lhs rhs : Variable) (op : Comparator) : Build Variable :=
  value (.compare op) [lhs, rhs]

/-- Returns from a script function. -/
def giveBack (result? : Option Variable) : Build Unit :=
  perform (.returnValue result?.isSome) result?.toList

/-! ### Blocks of the script -/

/-- The variable that a block defines, or the first one. -/
def firstOf (vs : List Variable) : Variable := vs.headD ⟨0⟩

variable {α β : Type}

/-- A function; the body is given the parameters. -/
def functionBlock (parameters : Nat) (body : List Variable → Build α) : Build (Variable × α) := do
  let i ← emit (.beginPlainFunction parameters.toUInt64) []
  let a ← body i.innerOutputs
  perform .endPlainFunction []
  return (firstOf i.outputs, a)

/-- A function whose body yields nothing. -/
def function (parameters : Nat) (body : List Variable → Build Unit) : Build Variable := do
  return (← functionBlock parameters body).1

/-- Code under a condition. -/
def ifBlock (condition : Variable) (body : Build α) : Build α := do
  perform .beginIf [condition]
  let a ← body
  perform .endIf []
  return a

/-- Code under a condition, and the code that runs otherwise. -/
def ifElseBlock (condition : Variable) (yes : Build α) (no : α → Build β) : Build β := do
  perform .beginIf [condition]
  let a ← yes
  perform .beginElse []
  let b ← no a
  perform .endIf []
  return b

/-- A counting loop; the body is given the counter. -/
def repeatBlock (iterations : UInt32) (body : Variable → Build α) : Build α := do
  let i ← emit (.beginRepeatLoop iterations) []
  let a ← body (firstOf i.innerOutputs)
  perform .endRepeatLoop []
  return a

/-- Code with a handler, which is given the exception. -/
def tryBlock (body : Build α) (handler : α → Variable → Build β) : Build β := do
  perform .beginTry []
  let a ← body
  let i ← emit .beginCatch []
  let b ← handler a (firstOf i.innerOutputs)
  perform .endTryCatch []
  return b

/-- Code whose exceptions are dropped. -/
def guarded (body : Build Unit) : Build Unit :=
  tryBlock body fun _ _ => do
    let _ ← value .loadUndefined []

/-! ### WebAssembly seen from the script -/

/-- A module: the compiled module, and the exports of its first instance. -/
def moduleBlock (body : Build α) : Build (Variable × Variable × α) := do
  perform .beginWasmModule []
  let a ← body
  let i ← emit .endWasmModule []
  return (firstOf i.outputs, firstOf i.outputs.tail, a)

/-- A module whose body yields nothing. -/
def module (body : Build Unit) : Build (Variable × Variable) := do
  let (m, exports, ()) ← moduleBlock body
  return (m, exports)

/-- The exports of a new instance of a module. -/
def instantiate (module : Variable) (imports : List Variable) : Build Variable :=
  value (.instantiateWasm imports.length.toUInt64) (module :: imports)

/-- The export with a name. -/
def exported (exports : Variable) (name : String) : Build Variable :=
  value (.getWasmExport name) [exports]

/-- The exported memory with an index. -/
def exportedMemory (exports : Variable) (index : Nat) : Build Variable :=
  value (.getWasmMemory index.toUInt32) [exports]

/-- The value of the exported global with a name. -/
def exportedGlobal (exports : Variable) (name : String) : Build Variable :=
  value (.getWasmGlobal name) [exports]

/-- Writes bytes to a memory object. -/
def writeMemory (memory : Variable) (offset : Nat) (bytes : List UInt8) : Build Unit :=
  perform (.writeWasmMemory offset.toUInt64 bytes) [memory]

/-! ### Function bodies -/

/-- A 32-bit constant. -/
def wasmInteger (n : Int) : Build Variable := value (.wasmConst (.i32 (Int32.ofInt n))) []

/-- Calls a function of the module and yields its results. -/
def wasmCall (function : Variable) (args : List Variable) : Build (List Variable) := do
  let signature : FunctionSignature :=
    match ← typeOf function with
    | .wasmEntity (.function signature) => signature
    | _ => ⟨[], []⟩
  return (← emit (.wasmCallFunction signature) (function :: args)).outputs

/-- Returns from a WebAssembly function. -/
def wasmGiveBack (result? : Option Variable) : Build Unit :=
  perform (.wasmReturn result?.isSome) result?.toList

/-- A block; the body is given the label, and a branch to it leaves the block. -/
def wasmBlock (body : Variable → Build α) : Build α := do
  let i ← emit .wasmBeginBlock []
  let a ← body (firstOf i.innerOutputs)
  perform .wasmEndBlock []
  return a

/-- A loop; the body is given the label, and a branch to it starts the loop again. -/
def wasmLoop (body : Variable → Build α) : Build α := do
  let i ← emit .wasmBeginLoop []
  let a ← body (firstOf i.innerOutputs)
  perform .wasmEndLoop []
  return a

/-- Code under a condition; a branch to the label leaves it. -/
def wasmIf (condition : Variable) (body : Variable → Build α) : Build α := do
  let i ← emit .wasmBeginIf [condition]
  let a ← body (firstOf i.innerOutputs)
  perform .wasmEndIf []
  return a

/-- Code under a condition and its alternative, each with a label of its own. -/
def wasmIfElse (condition : Variable) (yes : Variable → Build α) (no : α → Variable → Build β) :
    Build β := do
  let i ← emit .wasmBeginIf [condition]
  let a ← yes (firstOf i.innerOutputs)
  let j ← emit .wasmBeginElse []
  let b ← no a (firstOf j.innerOutputs)
  perform .wasmEndIf []
  return b

/-- How often a counted loop runs. -/
def loopIterations : Nat := 10

/-- A loop that runs a fixed number of times.  Counter and label are hidden, so that nothing else
can steer the loop. -/
def countedLoop (body : Build α) : Build α := do
  let counter ← wasmInteger loopIterations
  hide counter
  wasmLoop fun label => do
    hide label
    let a ← body
    let one ← wasmInteger 1
    let next ← value (.wasmIntBinary .bits32 .sub) [counter, one]
    perform .wasmReassign [counter, next]
    perform .wasmBranchIf [label, next]
    return a

end EngineFuzz.Build
