import EngineFuzz.Generation.RandomValue

/-!
# Changes of inputs

One input of an instruction is replaced by a visible variable of the same type, or the use of a
WebAssembly instance is changed.

* `Mutation.changeInput`: another input.
* `Mutation.changeAccess`: other imports, names or bytes.
-/

namespace EngineFuzz.Mutation

open Build

/-- The positions of the inputs that are not labels. -/
def changeableSlots (inputs : List Variable) : Build (List Nat) := look fun b =>
  (List.range inputs.length).filter fun slot =>
    match inputs[slot]? with
    | some v => !(b.typeOf v).isLabel
    | none => false

/-- Replaces one of the inputs by a variable of the same type. -/
def withOtherInput (inputs : List Variable) : Build (List Variable) := do
  match ← Draw.choose (← changeableSlots inputs) with
  | none => return inputs
  | some slot =>
    match inputs[slot]? with
    | none => return inputs
    | some v =>
      match ← randomOfType (← typeOf v) with
      | none => return inputs
      | some replacement => return inputs.set slot replacement

/-- Adopts an instruction with another input. -/
def changeInput (i : Instruction) : Build Unit := do
  let inputs ← adoptedInputs i
  adoptAs i i.operation (← withOtherInput inputs)

/-! ### Access to instances -/

/-- Names that exports of a module may have. -/
def exportNames : List String :=
  ["memory", "table", "global", "func", "main", "start", "add", "sub", "mul"]

/-- Names that exported globals may have. -/
def globalNames : List String := ["g0", "g1", "g2", "global0", "global1", "value", "result"]

/-- A name of the pool, or sometimes a real export whose name begins with `stem`. -/
def accessName (exports : Variable) (pool : List String) (stem : String) : Build String := do
  if ← Draw.chance 50 then
    let signature := (← typeOf exports).moduleSignature?.getD .empty
    let known := (signature.exports.map (·.name)).filter fun name =>
      stem.toList.isPrefixOf name.toList
    if let some name ← Draw.choose known then return name
  Draw.chooseD pool ""

/-- Visible script values, one for each time that there is one. -/
def someScriptValues : Nat → Build (List Variable)
  | 0 => return []
  | n + 1 => do
    match ← randomVariable StaticType.isScriptValue with
    | none => someScriptValues n
    | some v => return v :: (← someScriptValues n)

/-- The use of an instance with another payload; `inputs` begin with `target`. -/
def otherAccess (op : Operation) (target : Variable) (inputs : List Variable) :
    Build (Operation × List Variable) := do
  match op with
  | .instantiateWasm _ =>
    let imports ← someScriptValues (← Draw.nat64 0 3)
    return (.instantiateWasm imports.length.toUInt64, target :: imports)
  | .getWasmExport _ => return (.getWasmExport (← accessName target exportNames ""), inputs)
  | .getWasmMemory _ => return (.getWasmMemory (← Draw.nat32 0 3).toUInt32, inputs)
  | .writeWasmMemory .. =>
    let offset ← Draw.nat64 0 1024
    return (.writeWasmMemory offset.toUInt64 (← Draw.bytesUpTo 16), inputs)
  | .getWasmGlobal _ => return (.getWasmGlobal (← accessName target globalNames "global"), inputs)
  | op => return (op, inputs)

/-- Adopts an instruction that uses an instance, with other imports, names or bytes. -/
def changeAccess (i : Instruction) : Build Unit := do
  let inputs ← adoptedInputs i
  match inputs.head? with
  | none => adopt i
  | some target =>
    let (op, inputs) ← otherAccess i.operation target inputs
    adoptAs i op inputs

end EngineFuzz.Mutation
