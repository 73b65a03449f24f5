import EngineFuzz.Binary.Codec
import EngineFuzz.Program.Schema

/-!
# The binary program format

A program is its list of instructions and its version.  An operation is the number of its variant
in 32 bits, followed by its fields; floating-point payloads are raw words, so nothing is lost.

* `Program.toBytes`: the stored form.
* `Program.ofBytes?`: reads the stored form off the front of some bytes.
-/

namespace EngineFuzz

namespace ByteReader

def choice {α : Type} [Enumeration α] : ByteReader α := do
  match Enumeration.ofIndex? (← word).toNat with
  | some a => return a
  | none => failure

def literal : ByteReader WasmLiteral := do
  match (← word) with
  | 0 => return .i32 (← word).toInt32
  | 1 => return .i64 (← doubleWord).toInt64
  | 2 => return .f32 ⟨← word⟩
  | 3 => return .f64 ⟨← doubleWord⟩
  | 4 => return .nullRef (← choice)
  | _ => failure

def signature : ByteReader FunctionSignature := do
  let params ← list choice
  let results ← list choice
  return ⟨params, results⟩

def field : FieldKind → ByteReader FieldValue
  | .integer => do return .integer (← doubleWord).toInt64
  | .size => do return .size (← doubleWord)
  | .word => do return .word (← word)
  | .optionalWord => do return .optionalWord (← optional word)
  | .flag => do return .flag (← flag)
  | .double => do return .double ⟨← doubleWord⟩
  | .text => do return .text (← text)
  | .texts => do return .texts (← list text)
  | .bytes => do return .bytes (← list byte)
  | .choice names => do
    let index := (← word).toNat
    if index < names.length then return .choice index else failure
  | .literal => do return .literal (← literal)
  | .signature => do return .signature (← signature)

def fields : List (String × FieldKind) → ByteReader (List FieldValue)
  | [] => pure []
  | (_, kind) :: rest => do
    let value ← field kind
    let values ← fields rest
    return value :: values

def operation : ByteReader Operation := do
  let number := (← word).toNat
  match Operation.variants[number]? with
  | none => failure
  | some shape =>
    match Operation.ofPayload? number (← fields shape.fields) with
    | some op => return op
    | none => failure

def variableNumber : ByteReader Variable := do return ⟨← word⟩

def instruction : ByteReader Instruction := do
  let operation ← operation
  let inputs ← list variableNumber
  let outputs ← list variableNumber
  let innerOutputs ← list variableNumber
  return ⟨operation, inputs, outputs, innerOutputs⟩

def program : ByteReader Program := do
  let instructions ← list instruction
  let version ← word
  return ⟨instructions, version⟩

end ByteReader

namespace ByteWriter

def choice {α : Type} [Enumeration α] [BEq α] (a : α) : List UInt8 :=
  word (Enumeration.index a).toUInt32

def literal : WasmLiteral → List UInt8
  | .i32 v => word 0 ++ word v.toUInt32
  | .i64 v => word 1 ++ doubleWord v.toUInt64
  | .f32 v => word 2 ++ word v.bits
  | .f64 v => word 3 ++ doubleWord v.bits
  | .nullRef t => word 4 ++ choice t

def signature (s : FunctionSignature) : List UInt8 := list choice s.params ++ list choice s.results

def field : FieldValue → List UInt8
  | .integer v => doubleWord v.toUInt64
  | .size v => doubleWord v
  | .word v => word v
  | .optionalWord v => optional word v
  | .flag v => flag v
  | .double v => doubleWord v.bits
  | .text v => text v
  | .texts v => list text v
  | .bytes v => list ([·]) v
  | .choice index => word index.toUInt32
  | .literal v => literal v
  | .signature v => signature v

def operation (op : Operation) : List UInt8 :=
  let (number, values) := op.toPayload
  word number.toUInt32 ++ values.flatMap field

def variableNumber (v : Variable) : List UInt8 := word v.number

def instruction (i : Instruction) : List UInt8 :=
  operation i.operation ++ list variableNumber i.inputs ++ list variableNumber i.outputs ++
    list variableNumber i.innerOutputs

end ByteWriter

namespace Program

def toBytes (p : Program) : List UInt8 :=
  ByteWriter.list ByteWriter.instruction p.instructions ++ ByteWriter.word p.version

/-- The program that some bytes start with, whatever its version. -/
def readBytes? (bytes : List UInt8) : Option Program := (ByteReader.program bytes).map (·.1)

end Program

end EngineFuzz
